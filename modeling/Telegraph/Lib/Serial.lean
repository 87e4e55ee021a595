import Telegraph.Lib.Wal

namespace Telegraph.Lib

namespace Program
variable {σ ε α β : Type}

/-- The rest of a transaction over the committed state `s`, on its working copy: what
it commits, and what is left of the program when it has ended. -/
def inTx (s : σ) : Program σ ε α → σ → Option (σ × Program σ ε α)
  | done a, _ => some (s, done a)
  | fail e, _ => some (s, fail e)
  | openTx _, _ => none
  | commit next, w => some (w, next)
  | rollback next, _ => some (s, next)
  | select next, w => (next w).inTx s w
  | execute stmt next, w => match stmt w with
    | .ok (w', n) => (next n).inTx s w'
    | .error e => some (s, fail e)

/-- The next transaction, or the next statement outside one, with no other connection
in between. -/
def unit : Program σ ε α → σ → Option (σ × Program σ ε α)
  | done _, _ => none
  | fail _, _ => none
  | openTx next, s => next.inTx s s
  | commit next, s => some (s, next)
  | rollback next, s => some (s, next)
  | select next, s => some (s, next s)
  | execute stmt next, s => match stmt s with
    | .ok (s', n) => some (s', next n)
    | .error e => some (s, fail e)

/-- What is left of a transaction that ends without a write, on the view `s`. -/
def peek : Program σ ε α → σ → Option (Program σ ε α)
  | done a, _ => some (done a)
  | fail e, _ => some (fail e)
  | openTx _, _ => none
  | commit next, _ => some next
  | rollback next, _ => some next
  | select next, s => (next s).peek s
  | execute _ _, _ => none

/-- A statement that affects no row changes nothing. -/
def Counts : Program σ ε α → Prop
  | done _ => True
  | fail _ => True
  | openTx next => next.Counts
  | commit next => next.Counts
  | rollback next => next.Counts
  | select next => ∀ s, (next s).Counts
  | execute stmt next => (∀ s s', stmt s = .ok (s', 0) → s' = s) ∧ ∀ n, (next n).Counts

/-- One transaction or statement of a program as if it were alone, or a transaction
refused at a write that follows a read. -/
inductive Serial (busy : ε) (s : σ) : Program σ ε α → σ → Program σ ε α → Prop where
  | runs {p p' : Program σ ε α} {s' : σ} (h : p.unit s = some (s', p')) : Serial busy s p s' p'
  | refused {next : σ → Program σ ε α} : Serial busy s (openTx (select next)) s (fail busy)

theorem Serial.inv {busy : ε} {s s' : σ} {p p' : Program σ ε α} (h : Serial busy s p s' p') :
    p.unit s = some (s', p') ∨ ∃ next, p = openTx (select next) ∧ s' = s ∧ p' = fail busy := by
  cases h with
  | runs h => exact .inl h
  | refused => exact .inr ⟨_, rfl, rfl, rfl⟩

theorem inTx_of_peek {p r : Program σ ε α} {s : σ} (h : p.peek s = some r) :
    p.inTx s s = some (s, r) := by
  induction p with
  | done a =>
    cases h
    rfl
  | fail e =>
    cases h
    rfl
  | openTx next => cases h
  | commit next =>
    cases h
    rfl
  | rollback next =>
    cases h
    rfl
  | select next ih => exact ih s h
  | execute stmt next => cases h

/-- Nothing is left to do. -/
def Ended : Program σ ε α → Prop
  | done _ => True
  | fail _ => True
  | _ => False

/-- Only statements that read, outside any transaction. -/
def Reads : Program σ ε α → Prop
  | done _ => True
  | fail _ => True
  | select next => ∀ s, (next s).Reads
  | _ => False

/-- Statements alone: no transaction begins or ends. -/
def Plain : Program σ ε α → Prop
  | done _ => True
  | fail _ => True
  | select next => ∀ s, (next s).Plain
  | execute stmt next => (∀ s s', stmt s = .ok (s', 0) → s' = s) ∧ ∀ n, (next n).Plain
  | _ => False

/-- The rest of a transaction, with what `tail` says to follow it. -/
def LastTx (tail : Program σ ε α → Prop) : Program σ ε α → Prop
  | done _ => True
  | fail _ => True
  | openTx _ => False
  | commit next => tail next
  | rollback next => tail next
  | select next => ∀ s, (next s).LastTx tail
  | execute stmt next => (∀ s s', stmt s = .ok (s', 0) → s' = s) ∧ ∀ n, (next n).LastTx tail

/-- One transaction or statement, with what `tail` says to follow it. -/
def Single (tail : Program σ ε α → Prop) : Program σ ε α → Prop
  | done _ => True
  | fail _ => True
  | openTx next => next.LastTx tail
  | select next => ∀ s, tail (next s)
  | execute stmt next => (∀ s s', stmt s = .ok (s', 0) → s' = s) ∧ ∀ n, tail (next n)
  | _ => False

/-- What a program that is over returned. -/
def outcome : Program σ ε α → Option (Except ε α)
  | done a => some (.ok a)
  | fail e => some (.error e)
  | _ => none

section Tails
variable {p p' : Program σ ε α} {q : Program σ ε β} {f : β → Program σ ε α} {s s' w : σ}
variable {T : Program σ ε β → Prop} {T' : Program σ ε α → Prop}

theorem Ended.reads (h : p.Ended) : p.Reads := by
  cases p <;> trivial

theorem Ended.single (h : p.Ended) : p.Single T' := by
  cases p <;> trivial

theorem Ended.bind (hq : q.Ended) (hf : ∀ b, (f b).Ended) : (q.bind f).Ended := by
  cases q with
  | done b => exact hf b
  | fail e => trivial
  | _ => exact hq.elim

theorem Reads.bind (hq : q.Reads) (hf : ∀ b, (f b).Reads) : (q.bind f).Reads := by
  induction q with
  | done b => exact hf b
  | fail e => trivial
  | select next ih => exact fun s => ih s (hq s)
  | _ => exact hq.elim

theorem Reads.lastTx (h : p.Reads) : p.LastTx T' := by
  induction p with
  | done a => trivial
  | fail e => trivial
  | select next ih => exact fun s => ih s (h s)
  | _ => exact h.elim

theorem Reads.single (h : p.Reads) (hT : ∀ r : Program σ ε α, r.Reads → T' r) : p.Single T' := by
  cases p with
  | done a => trivial
  | fail e => trivial
  | select next => exact fun s => hT _ (h s)
  | _ => exact h.elim

theorem Reads.counts (h : p.Reads) : p.Counts := by
  induction p with
  | done a => trivial
  | fail e => trivial
  | select next ih => exact fun s => ih s (h s)
  | _ => exact h.elim

theorem LastTx.counts (h : p.LastTx T') (hT : ∀ r, T' r → r.Counts) : p.Counts := by
  induction p with
  | done a => trivial
  | fail e => trivial
  | openTx next => exact h.elim
  | commit next => exact hT next h
  | rollback next => exact hT next h
  | select next ih => exact fun s => ih s (h s)
  | execute stmt next ih => exact ⟨h.1, fun n => ih n (h.2 n)⟩

theorem Single.counts (h : p.Single T') (hT : ∀ r, T' r → r.Counts) : p.Counts := by
  cases p with
  | done a => trivial
  | fail e => trivial
  | openTx next => exact LastTx.counts (p := next) h hT
  | select next => exact fun s => hT _ (h s)
  | execute stmt next => exact ⟨h.1, fun n => hT _ (h.2 n)⟩
  | _ => exact h.elim

theorem LastTx.bind (hq : q.LastTx T) (hT : ∀ r, T r → T' (r.bind f)) (hf : ∀ b, (f b).LastTx T') :
    (q.bind f).LastTx T' := by
  induction q with
  | done b => exact hf b
  | fail e => trivial
  | openTx next => exact hq.elim
  | commit next => exact hT next hq
  | rollback next => exact hT next hq
  | select next ih => exact fun s => ih s (hq s)
  | execute stmt next ih => exact ⟨hq.1, fun n => ih n (hq.2 n)⟩

theorem Single.bind (hq : q.Single T) (hT : ∀ r, T r → T' (r.bind f))
    (hl : ∀ b, (f b).LastTx T') (hf : ∀ b, (f b).Single T') : (q.bind f).Single T' := by
  cases q with
  | done b => exact hf b
  | fail e => trivial
  | openTx next => exact LastTx.bind (q := next) hq hT hl
  | select next => exact fun s => hT _ (hq s)
  | execute stmt next => exact ⟨hq.1, fun n => hT _ (hq.2 n)⟩
  | _ => exact hq.elim

/-- A transaction and then a value. -/
theorem Single.andThen (hq : q.Single Ended) (hf : ∀ b, (f b).Ended) : (q.bind f).Single Ended :=
  hq.bind (fun _ hr => hr.bind hf) (fun b => (hf b).reads.lastTx) fun b => (hf b).single

theorem Plain.bind (hq : q.Plain) (hf : ∀ b, (f b).Plain) : (q.bind f).Plain := by
  induction q with
  | done b => exact hf b
  | fail e => trivial
  | select next ih => exact fun s => ih s (hq s)
  | execute stmt next ih => exact ⟨hq.1, fun n => ih n (hq.2 n)⟩
  | _ => exact hq.elim

theorem Plain.lastTx (hq : q.Plain) (hf : ∀ b, (f b).LastTx T') : (q.bind f).LastTx T' := by
  induction q with
  | done b => exact hf b
  | fail e => trivial
  | select next ih => exact fun s => ih s (hq s)
  | execute stmt next ih => exact ⟨hq.1, fun n => ih n (hq.2 n)⟩
  | _ => exact hq.elim

theorem single_begin {f : Unit → Program σ ε α} (h : (f ()).LastTx T') :
    ((beginTx : Program σ ε Unit).bind f).Single T' := h

theorem lastTx_commit {f : Unit → Program σ ε α} (h : T' (f ())) :
    ((commitTx : Program σ ε Unit).bind f).LastTx T' := h

theorem lastTx_drop {f : Unit → Program σ ε α} (h : T' (f ())) :
    ((dropTx : Program σ ε Unit).bind f).LastTx T' := h

theorem reads_query {r : σ → β} : (query r : Program σ ε β).Reads := fun _ => trivial

theorem reads_require {o : Option α} {e : ε} : (require o e : Program σ ε α).Reads := by
  cases o <;> trivial

theorem ended_require {o : Option α} {e : ε} : (require o e : Program σ ε α).Ended := by
  cases o <;> trivial

theorem plain_query {r : σ → β} : (query r : Program σ ε β).Plain := fun _ => trivial

theorem plain_modify {g : σ → σ} {rows : σ → Nat} (h : ∀ s, rows s = 0 → g s = s) :
    (modify g rows : Program σ ε Nat).Plain := by
  refine ⟨fun s s' he => ?_, fun _ => trivial⟩
  obtain ⟨rfl, hn⟩ := Prod.mk.inj (Except.ok.inj he)
  exact h s hn

theorem plain_attempt {g : σ → Except ε σ} : (attempt g : Program σ ε Unit).Plain := by
  refine ⟨fun s s' he => ?_, fun _ => trivial⟩
  cases hg : g s <;> simp [hg, Except.map] at he

theorem plain_require {o : Option α} {e : ε} : (require o e : Program σ ε α).Plain := by
  cases o <;> trivial

theorem LastTx.ends (h : p.LastTx T') (hT : ∀ r : Program σ ε α, r.Ended → T' r)
    (hu : p.inTx s w = some (s', p')) : T' p' := by
  induction p generalizing w with
  | done a =>
    cases hu
    exact hT _ trivial
  | fail e =>
    cases hu
    exact hT _ trivial
  | openTx next => cases hu
  | commit next =>
    cases hu
    exact h
  | rollback next =>
    cases hu
    exact h
  | select next ih => exact ih w (h w) hu
  | execute stmt next ih =>
    cases hs : stmt w with
    | ok r =>
      simp only [inTx, hs] at hu
      exact ih _ (h.2 _) hu
    | error e =>
      simp only [inTx, hs] at hu
      cases hu
      exact hT _ trivial

/-- What its only transaction leaves of a program. -/
theorem Single.ends (h : p.Single T') (hT : ∀ r : Program σ ε α, r.Ended → T' r)
    (hu : p.unit s = some (s', p')) : T' p' := by
  cases p with
  | done a => cases hu
  | fail e => cases hu
  | openTx next => exact LastTx.ends (p := next) h hT hu
  | select next =>
    cases hu
    exact h s
  | execute stmt next =>
    cases hs : stmt s with
    | ok r =>
      simp only [unit, hs] at hu
      cases hu
      exact h.2 _
    | error e =>
      simp only [unit, hs] at hu
      cases hu
      exact hT _ trivial
  | _ => exact h.elim

/-- The state a transaction leaves is the one it commits, whatever is read after it. -/
theorem exec_inTx (hu : p.inTx s w = some (s', p')) :
    ∃ v, (p'.Ended ∨ v = none) ∧ p.exec ⟨s, some w⟩ = p'.exec ⟨s', v⟩ := by
  induction p generalizing w with
  | openTx next => cases hu
  | select next ih => exact ih w hu
  | execute stmt next ih =>
    cases hs : stmt w with
    | ok r' =>
      simp only [inTx, hs] at hu
      simp only [exec, Connection.view_open, hs, Connection.put_open]
      exact ih _ hu
    | error e =>
      simp only [inTx, hs] at hu
      cases hu
      refine ⟨some w, .inl trivial, ?_⟩
      simp only [exec, Connection.view_open, hs]
  | done a =>
    cases hu
    exact ⟨some w, .inl trivial, rfl⟩
  | fail e =>
    cases hu
    exact ⟨some w, .inl trivial, rfl⟩
  | commit next =>
    cases hu
    exact ⟨none, .inr rfl, rfl⟩
  | rollback next =>
    cases hu
    exact ⟨none, .inr rfl, rfl⟩

theorem exec_unit (hu : p.unit s = some (s', p')) :
    ∃ v, (p'.Ended ∨ v = none) ∧ p.exec ⟨s, none⟩ = p'.exec ⟨s', v⟩ := by
  cases p with
  | done a => cases hu
  | fail e => cases hu
  | openTx next => exact exec_inTx (p := next) hu
  | execute stmt next =>
    cases hs : stmt s with
    | ok r' =>
      simp only [unit, hs] at hu
      cases hu
      refine ⟨none, .inr rfl, ?_⟩
      simp only [exec, Connection.view_closed, hs, Connection.put_closed]
    | error e =>
      simp only [unit, hs] at hu
      cases hu
      refine ⟨none, .inr rfl, ?_⟩
      simp only [exec, Connection.view_closed, hs]
  | commit next =>
    cases hu
    exact ⟨none, .inr rfl, rfl⟩
  | rollback next =>
    cases hu
    exact ⟨none, .inr rfl, rfl⟩
  | select next =>
    cases hu
    exact ⟨none, .inr rfl, rfl⟩

theorem Reads.exec (h : p.Reads) (c : Connection σ) : (p.exec c).2 = c := by
  induction p with
  | done a => rfl
  | fail e => rfl
  | select next ih => exact ih c.view (h c.view)
  | _ => exact h.elim

/-- A program that is over after its next transaction runs as that transaction. -/
theorem run_of_outcome {r : Except ε α} (hu : p.unit s = some (s', p')) (hr : p'.outcome = some r) :
    p.run s = (s', r) := by
  obtain ⟨v, -, he⟩ := exec_unit hu
  unfold run
  rw [he]
  cases p' <;> cases hr <;> rfl

/-- Reading on after a transaction leaves its state. -/
theorem run_of_reads (hu : p.unit s = some (s', p')) (hp : p'.Reads) : (p.run s).1 = s' := by
  obtain ⟨v, -, he⟩ := exec_unit hu
  unfold run
  rw [he, hp.exec]

theorem Reads.unit (h : p.Reads) (hu : p.unit s = some (s', p')) : s' = s ∧ p'.Reads := by
  cases p with
  | select next =>
    cases hu
    exact ⟨rfl, h s⟩
  | done a => cases hu
  | fail e => cases hu
  | _ => exact h.elim

theorem run_bind_reads (hf : ∀ b, (f b).Reads) : ((q.bind f).run s).1 = (q.run s).1 := by
  unfold run
  rw [exec_bind]
  cases h : q.exec ⟨s, none⟩ with
  | mk r c =>
    cases r with
    | ok b => simp only [(hf b).exec]
    | error e => rfl

end Tails
end Program

namespace Wal
variable {ι σ ε α : Type} {me j : ι} {db db' : Wal ι σ} {pool : Nat} {busy : ε}
variable {p p' q : Program σ ε α} {hold hold' : Hold σ}

/-- The program a connection runs, with its transaction so far, as the program `q` of a
connection that takes each transaction in one step. One that only reads has already
taken it, when its snapshot was fixed. -/
inductive Tracks (me : ι) (db : Wal ι σ) : Program σ ε α → Hold σ → Program σ ε α → Prop where
  | idle {p : Program σ ε α} : Tracks me db p .idle p
  | deferred {p : Program σ ε α} : Tracks me db p .deferred (.openTx p)
  | settled {p r : Program σ ε α} {s : σ} {v : Nat} (h : p.peek s = some r) :
      Tracks me db p (.reading s v) r
  | reading {p : Program σ ε α} {s : σ} {v : Nat} {next : σ → Program σ ε α} (h : p.peek s = none)
      (same : p.inTx s s = (next s).inTx s s) (seen : v ≤ db.version)
      (current : v = db.version → s = db.committed) :
      Tracks me db p (.reading s v) (.openTx (.select next))
  | writing {p next : Program σ ε α} {w : σ} {changed : Bool} (lock : db.writer = some me)
      (same : p.inTx db.committed w = next.inTx db.committed db.committed)
      (unchanged : changed = false → w = db.committed) :
      Tracks me db p (.writing w changed) (.openTx next)

/-- Between its transactions a connection is where its tracker is. -/
theorem Tracks.eq (h : Tracks me db p .idle q) : q = p := by
  cases h
  rfl

/-- What a statement of `me` leaves to the other connections. -/
structure Evolves (me : ι) (db db' : Wal ι σ) : Prop where
  version : db.version ≤ db'.version
  committed : db'.version = db.version → db'.committed = db.committed
  locked : ∀ j, j ≠ me → db.writer = some j → db'.writer = some j ∧ db'.committed = db.committed

theorem Evolves.refl (me : ι) (db : Wal ι σ) : Evolves me db db :=
  ⟨Nat.le_refl _, fun _ => rfl, fun _ _ h => ⟨h, rfl⟩⟩

/-- The lock changes hands, and nothing else. -/
theorem Evolves.of_committed (hc : db'.committed = db.committed) (hv : db'.version = db.version)
    (hw : ∀ j, j ≠ me → db.writer = some j → db'.writer = some j) : Evolves me db db' :=
  ⟨Nat.le_of_eq hv.symm, fun _ => hc, fun j hj h => ⟨hw j hj h, hc⟩⟩

theorem Tracks.others (h : Tracks j db p hold q) (hj : j ≠ me) (he : Evolves me db db') :
    Tracks j db' p hold q := by
  cases h with
  | idle => exact .idle
  | deferred => exact .deferred
  | settled hp => exact .settled hp
  | reading hp same seen current =>
    refine .reading hp same (Nat.le_trans seen he.version) fun hv => ?_
    -- A snapshot that is current after the statement was current before it.
    have hv' : db'.version = db.version := Nat.le_antisymm (hv ▸ seen) he.version
    rw [he.committed hv']
    exact current (hv.trans hv')
  | writing lock same unchanged =>
    obtain ⟨lock', hc⟩ := he.locked j hj lock
    refine .writing lock' ?_ ?_
    · rw [hc]
      exact same
    · rw [hc]
      exact unchanged

/-- A connection is lent or returned. -/
theorem Evolves.lends (n : Nat) : Evolves me db { db with lent := n } :=
  .of_committed rfl rfl fun _ _ h => h

/-- The lock of `me` is given back. -/
theorem Evolves.unlocks (n : Nat) (hl : db.writer = some me) :
    Evolves me db { db with writer := none, lent := n } := by
  refine .of_committed rfl rfl fun j hj h => ?_
  rw [hl] at h
  exact absurd (Option.some.inj h).symm hj

/-- Nobody else holds the lock that `me` takes or has. -/
theorem Evolves.write {s : σ} {changed : Bool} {stmt : σ → Except ε (σ × Nat)}
    {next : Nat → Program σ ε α} (hl : ∀ j, db.writer = some j → j = me) :
    Evolves me db (db.write me s changed stmt next).1 := by
  have hlocked : ∀ j, j ≠ me → db.writer = some j → some me = some j := fun j hj h => absurd (hl j h) hj
  unfold Wal.write
  split <;> exact .of_committed rfl rfl hlocked

theorem Evolves.autocommit {stmt : σ → Except ε (σ × Nat)} {next : Nat → Program σ ε α}
    (hc : ∀ s s', stmt s = .ok (s', 0) → s' = s) (hfree : db.writer = none) :
    Evolves me db (db.autocommit stmt next).1 := by
  have hnone : ∀ j : ι, db.writer ≠ some j := by simp [hfree]
  unfold Wal.autocommit
  split
  · next s' n hs =>
    by_cases hn : n = 0
    · subst hn
      exact .of_committed (hc _ _ hs) (by simp) fun j _ h => absurd h (hnone j)
    · refine ⟨?_, fun hv => ?_, fun j _ h => absurd h (hnone j)⟩
      · simp [hn]
      · simp [hn] at hv
  · exact .refl me db

/-- A commit that changed no row leaves the version where it is. -/
theorem Evolves.commit {w : σ} {changed : Bool} (hl : db.writer = some me)
    (hw : changed = false → w = db.committed) : Evolves me db (db.commit (.writing w changed)) := by
  have hlocked : ∀ j, j ≠ me → db.writer ≠ some j := by
    intro j hj h
    rw [hl] at h
    exact hj (Option.some.inj h).symm
  cases changed with
  | false => exact .of_committed (hw rfl) rfl fun j hj h => absurd h (hlocked j hj)
  | true =>
    refine ⟨Nat.le_succ _, fun hv => ?_, fun j hj h => absurd h (hlocked j hj)⟩
    exact absurd hv (Nat.succ_ne_self _)

/-- A connection after a statement: it stutters, or takes one whole transaction, as the
program `q` that tracked it. -/
structure Kept (busy : ε) (me : ι) (db : Wal ι σ) (q : Program σ ε α) (db' : Wal ι σ)
    (p' : Program σ ε α) (hold' : Hold σ) : Prop where
  evolves : Evolves me db db'
  counts : p'.Counts
  tracks : ∃ q', Tracks me db' p' hold' q' ∧
    (q' = q ∧ db'.committed = db.committed ∨ Program.Serial busy db.committed q db'.committed q')

theorem Kept.same (he : Evolves me db db') (hp : p'.Counts) (ht : Tracks me db' p' hold' q)
    (hc : db'.committed = db.committed) : Kept busy me db q db' p' hold' :=
  ⟨he, hp, q, ht, .inl ⟨rfl, hc⟩⟩

theorem Kept.moved {q' : Program σ ε α} (he : Evolves me db db') (hp : p'.Counts)
    (ht : Tracks me db' p' hold' q') (hu : q.unit db.committed = some (db'.committed, q')) :
    Kept busy me db q db' p' hold' :=
  ⟨he, hp, q', ht, .inr (.runs hu)⟩

/-- A write inside a transaction keeps what the transaction would commit. -/
theorem Kept.writes {s : σ} {changed : Bool} {stmt : σ → Except ε (σ × Nat)}
    {next : Nat → Program σ ε α} {whole : Program σ ε α} (hp : (Program.execute stmt next).Counts)
    (hl : ∀ j, db.writer = some j → j = me)
    (same : (Program.execute stmt next).inTx db.committed s = whole.inTx db.committed db.committed)
    (unchanged : changed = false → s = db.committed)
    (hs : db.write me s changed stmt next = (db', p', hold')) :
    Kept busy me db (.openTx whole) db' p' hold' := by
  have he : Evolves me db (db.write me s changed stmt next).1 := .write hl
  rw [hs] at he
  unfold Wal.write at hs
  cases hr : stmt s with
  | ok r =>
    obtain ⟨s', n⟩ := r
    simp only [hr] at hs
    cases hs
    refine .same he (hp.2 n) (.writing rfl ?_ fun hch => ?_) rfl
    · simpa only [Program.inTx, hr] using same
    · obtain ⟨hch, hn⟩ := Bool.or_eq_false_iff.mp hch
      have hn : n = 0 := by simpa using hn
      rw [hn] at hr
      exact (hp.1 s s' hr).trans (unchanged hch)
  | error e =>
    simp only [hr] at hs
    cases hs
    refine .same he trivial (.writing rfl ?_ unchanged) rfl
    simpa only [Program.inTx, hr] using same

/-- The snapshot of a first `SELECT` settles what only reads. -/
theorem Kept.snapshot {next : σ → Program σ ε α} (hp : (next db.committed).Counts) :
    Kept busy me db (.openTx (.select next)) db (next db.committed)
      (.reading db.committed db.version) := by
  cases h : (next db.committed).peek db.committed with
  | some r => exact .moved (.refl me db) hp (.settled h) (Program.inTx_of_peek h)
  | none => exact .same (.refl me db) hp (.reading h rfl (Nat.le_refl _) fun _ => rfl) rfl

section Statements
variable (hp : p.Counts)
include hp

theorem step_idle (hs : db.step pool busy me p .idle = some (db', p', hold')) :
    Kept busy me db p db' p' hold' := by
  cases p with
  | done a => cases hs
  | fail e => cases hs
  | openTx next =>
    obtain ⟨-, hs⟩ := Option.ite_none_right_eq_some.mp hs
    cases hs
    exact .same (.lends _) hp .deferred rfl
  | commit next =>
    cases hs
    exact .moved (.refl me db) hp .idle rfl
  | rollback next =>
    cases hs
    exact .moved (.refl me db) hp .idle rfl
  | select next =>
    obtain ⟨-, hs⟩ := Option.ite_none_right_eq_some.mp hs
    cases hs
    exact .moved (.refl me db) (hp _) .idle rfl
  | execute stmt next =>
    obtain ⟨⟨-, hfree⟩, hs⟩ := Option.ite_none_right_eq_some.mp hs
    have hs := Option.some.inj hs
    have he : Evolves me db (db.autocommit stmt next).1 :=
      .autocommit hp.1 (Option.isNone_iff_eq_none.mp hfree)
    rw [hs] at he
    unfold Wal.autocommit at hs
    cases hr : stmt db.committed with
    | ok r =>
      simp only [hr] at hs
      cases hs
      exact .moved he (hp.2 _) .idle (by simp only [Program.unit, hr])
    | error e =>
      simp only [hr] at hs
      cases hs
      exact .moved he trivial .idle (by simp only [Program.unit, hr])

theorem step_deferred (hs : db.step pool busy me p .deferred = some (db', p', hold')) :
    Kept busy me db (.openTx p) db' p' hold' := by
  cases p with
  | openTx next => cases hs
  | select next =>
    cases hs
    exact .snapshot (hp _)
  | execute stmt next =>
    obtain ⟨hfree, hs⟩ := Option.ite_none_right_eq_some.mp hs
    have hl : ∀ j, db.writer = some j → j = me := by simp [Option.isNone_iff_eq_none.mp hfree]
    exact .writes hp hl rfl (fun _ => rfl) (Option.some.inj hs)
  | _ =>
    cases hs
    exact .moved (.lends _) hp .idle rfl

/-- What only reads goes on to what its snapshot settled. -/
theorem step_settled {s : σ} {v : Nat} (h : p.peek s = some q)
    (hs : db.step pool busy me p (.reading s v) = some (db', p', hold')) :
    Kept busy me db q db' p' hold' := by
  cases p with
  | openTx next => cases hs
  | select next =>
    cases hs
    exact .same (.refl me db) (hp _) (.settled h) rfl
  | execute stmt next => cases h
  | _ =>
    cases hs
    cases h
    exact .same (.lends _) hp .idle rfl

theorem step_reading {s : σ} {v : Nat} {next : σ → Program σ ε α} (h : p.peek s = none)
    (same : p.inTx s s = (next s).inTx s s) (seen : v ≤ db.version)
    (current : v = db.version → s = db.committed)
    (hs : db.step pool busy me p (.reading s v) = some (db', p', hold')) :
    Kept busy me db (.openTx (.select next)) db' p' hold' := by
  cases p with
  | openTx next => cases hs
  | select next =>
    cases hs
    exact .same (.refl me db) (hp _) (.reading h same seen current) rfl
  | execute stmt k =>
    by_cases hfree : db.writer.isNone = true ∧ v = db.version
    · rw [Wal.step, if_pos hfree] at hs
      obtain ⟨hfree, hv⟩ := hfree
      have hl : ∀ j, db.writer = some j → j = me := by simp [Option.isNone_iff_eq_none.mp hfree]
      obtain rfl := current hv
      exact .writes hp hl same (fun _ => rfl) (Option.some.inj hs)
    · rw [Wal.step, if_neg hfree] at hs
      cases hs
      exact ⟨.lends _, trivial, .fail busy, .idle, .inr .refused⟩
  | _ => cases h

/-- Under the lock the committed state is the snapshot: the transaction takes effect at its commit. -/
theorem step_writing {next : Program σ ε α} {w : σ} {changed : Bool} (lock : db.writer = some me)
    (same : p.inTx db.committed w = next.inTx db.committed db.committed)
    (unchanged : changed = false → w = db.committed)
    (hs : db.step pool busy me p (.writing w changed) = some (db', p', hold')) :
    Kept busy me db (.openTx next) db' p' hold' := by
  cases p with
  | openTx next => cases hs
  | select next =>
    cases hs
    exact .same (.refl me db) (hp _) (.writing lock same unchanged) rfl
  | execute stmt k =>
    have hl : ∀ j, db.writer = some j → j = me := by simp [lock, eq_comm]
    exact .writes hp hl same unchanged (Option.some.inj hs)
  | commit next =>
    cases hs
    exact .moved (.commit lock unchanged) hp .idle same.symm
  | _ =>
    cases hs
    exact .moved (.unlocks _ lock) hp .idle same.symm

end Statements

/-- One statement of a connection is a stutter, or one whole transaction, of the
connection it is tracked by. -/
theorem Tracks.step (h : Tracks me db p hold q) (hp : p.Counts)
    (hs : db.step pool busy me p hold = some (db', p', hold')) : Kept busy me db q db' p' hold' := by
  cases h with
  | idle => exact step_idle hp hs
  | deferred => exact step_deferred hp hs
  | settled h => exact step_settled hp h hs
  | reading h same seen current => exact step_reading hp h same seen current hs
  | writing lock same unchanged => exact step_writing hp lock same unchanged hs

end Wal
end Telegraph.Lib
