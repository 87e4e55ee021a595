import Telegraph.Lib.Program

namespace Telegraph.Lib

/-- How far a connection's transaction has come. -/
inductive Hold (σ : Type) where
  | idle
  | deferred
  | reading (snapshot : σ) (version : Nat)
  | writing (working : σ) (changed : Bool)

/-- A database in WAL mode: its committed state, the number of commits that changed it, the
connection with the write lock, and how many connections its pool has lent to transactions. -/
structure Wal (ι σ : Type) where
  committed : σ
  version : Nat
  writer : Option ι
  lent : Nat

namespace Wal
variable {ι σ ε α : Type}

/-- The end of a transaction, its changes dropped. -/
def release (db : Wal ι σ) : Hold σ → Wal ι σ
  | .idle => db
  | .writing _ _ => { db with writer := none, lent := db.lent - 1 }
  | _ => { db with lent := db.lent - 1 }

def commit (db : Wal ι σ) : Hold σ → Wal ι σ
  | .writing working changed =>
    ⟨working, if changed then db.version + 1 else db.version, none, db.lent - 1⟩
  | hold => db.release hold

/-- A statement inside a transaction with the write lock, on the view `s`. Where a
constraint refuses it the lock stays until the transaction is dropped. -/
def write (db : Wal ι σ) (me : ι) (s : σ) (changed : Bool) (stmt : σ → Except ε (σ × Nat))
    (next : Nat → Program σ ε α) : Wal ι σ × Program σ ε α × Hold σ :=
  match stmt s with
  | .ok (s', n) => ({ db with writer := some me }, next n, .writing s' (changed || n != 0))
  | .error e => ({ db with writer := some me }, .fail e, .writing s changed)

/-- A statement on its own, which commits at once. -/
def autocommit (db : Wal ι σ) (stmt : σ → Except ε (σ × Nat)) (next : Nat → Program σ ε α) :
    Wal ι σ × Program σ ε α × Hold σ :=
  match stmt db.committed with
  | .ok (s', n) =>
    ({ db with committed := s', version := if n != 0 then db.version + 1 else db.version }, next n, .idle)
  | .error e => (db, .fail e, .idle)

/-- The next statement of one connection, or `none` where it waits or has ended. The
snapshot is fixed by the first `SELECT`; a transaction that has read may write only if the
lock is free and nothing was committed since, and fails at once with `busy` otherwise,
while one that has not waits for the lock. -/
def step (pool : Nat) (busy : ε) (me : ι) (db : Wal ι σ) :
    Program σ ε α → Hold σ → Option (Wal ι σ × Program σ ε α × Hold σ)
  | .done _, .idle => none
  | .done a, hold => some (db.release hold, .done a, .idle)
  | .fail _, .idle => none
  | .fail e, hold => some (db.release hold, .fail e, .idle)
  | .openTx next, .idle =>
    if db.lent < pool then some ({ db with lent := db.lent + 1 }, next, .deferred) else none
  | .openTx _, _ => none
  | .commit next, hold => some (db.commit hold, next, .idle)
  | .rollback next, hold => some (db.release hold, next, .idle)
  | .select next, .idle => if db.lent < pool then some (db, next db.committed, .idle) else none
  | .select next, .deferred => some (db, next db.committed, .reading db.committed db.version)
  | .select next, .reading s v => some (db, next s, .reading s v)
  | .select next, .writing s changed => some (db, next s, .writing s changed)
  | .execute stmt next, .idle =>
    if db.lent < pool ∧ db.writer.isNone = true then some (db.autocommit stmt next) else none
  | .execute stmt next, .deferred =>
    if db.writer.isNone then some (db.write me db.committed false stmt next) else none
  | .execute stmt next, .reading s v =>
    if db.writer.isNone = true ∧ v = db.version then some (db.write me s false stmt next)
    else some (db.release (.reading s v), .fail busy, .idle)
  | .execute stmt next, .writing s changed => some (db.write me s changed stmt next)

end Wal

namespace Program
variable {σ ε α β : Type} {e : ε}

/-- Whatever it finds, the program does not fail with `e` of itself. -/
def Spares (e : ε) : Program σ ε α → Prop
  | done _ => True
  | fail e' => e' ≠ e
  | openTx next => next.Spares e
  | commit next => next.Spares e
  | rollback next => next.Spares e
  | select next => ∀ s, (next s).Spares e
  | execute stmt next => (∀ s, stmt s ≠ .error e) ∧ ∀ n, (next n).Spares e

/-- The next statement is one the database refuses: a first write after a read, while
another connection holds the lock or after one has committed. -/
def Refused {ι : Type} (db : Wal ι σ) : Program σ ε α → Hold σ → Prop
  | execute _ _, .reading _ v => ¬ (db.writer.isNone = true ∧ v = db.version)
  | _, _ => False

theorem spares_bind {p : Program σ ε β} {f : β → Program σ ε α} (hp : p.Spares e) (hf : ∀ b, (f b).Spares e) :
    (p.bind f).Spares e := by
  induction p with
  | done b => exact hf b
  | fail e' => exact hp
  | openTx next ih => exact ih hp
  | commit next ih => exact ih hp
  | rollback next ih => exact ih hp
  | select next ih => exact fun s => ih s (hp s)
  | execute stmt next ih => exact ⟨hp.1, fun n => ih n (hp.2 n)⟩

theorem spares_done {a : α} : (done a : Program σ ε α).Spares e := trivial

theorem spares_fail {e' : ε} (h : e' ≠ e) : (fail e' : Program σ ε α).Spares e := h

theorem spares_begin : (beginTx : Program σ ε Unit).Spares e := trivial

theorem spares_commit : (commitTx : Program σ ε Unit).Spares e := trivial

theorem spares_drop : (dropTx : Program σ ε Unit).Spares e := trivial

theorem spares_query {q : σ → β} : (query q : Program σ ε β).Spares e := fun _ => trivial

theorem spares_modify {f : σ → σ} {rows : σ → Nat} : (modify f rows : Program σ ε Nat).Spares e :=
  ⟨fun _ h => (by cases h), fun _ => trivial⟩

theorem spares_attempt {f : σ → Except ε σ} (h : ∀ s, f s ≠ .error e) :
    (attempt f : Program σ ε Unit).Spares e := by
  refine ⟨fun s he => h s ?_, fun _ => trivial⟩
  cases hf : f s with
  | ok s' =>
    simp only [hf] at he
    cases he
  | error e' =>
    simp only [hf] at he
    cases he
    rfl

theorem spares_require {o : Option α} {e' : ε} (h : e' ≠ e) : (require o e' : Program σ ε α).Spares e := by
  cases o with
  | none => exact h
  | some a => trivial

section Steps
variable {ι : Type} {pool : Nat} {me : ι} {db db' : Wal ι σ} {p p' : Program σ ε α} {hold hold' : Hold σ}

/-- A statement that runs fails only with an error of its own. -/
theorem spares_write {s : σ} {changed : Bool} {stmt : σ → Except ε (σ × Nat)}
    {next : Nat → Program σ ε α} (h : (execute stmt next).Spares e)
    (hs : db.write me s changed stmt next = (db', p', hold')) : p'.Spares e := by
  unfold Wal.write at hs
  cases hr : stmt s with
  | ok r =>
    rw [hr] at hs
    cases hs
    exact h.2 r.2
  | error e' =>
    rw [hr] at hs
    cases hs
    rintro rfl
    exact h.1 s hr

theorem spares_autocommit {stmt : σ → Except ε (σ × Nat)} {next : Nat → Program σ ε α}
    (h : (execute stmt next).Spares e) (hs : db.autocommit stmt next = (db', p', hold')) :
    p'.Spares e := by
  unfold Wal.autocommit at hs
  cases hr : stmt db.committed with
  | ok r =>
    rw [hr] at hs
    cases hs
    exact h.2 r.2
  | error e' =>
    rw [hr] at hs
    cases hs
    rintro rfl
    exact h.1 _ hr

/-- A refused statement fails with `e`, its transaction dropped. -/
theorem Refused.step (h : p.Refused db hold) (hs : db.step pool e me p hold = some (db', p', hold')) :
    p' = .fail e ∧ hold' = .idle := by
  cases p <;> cases hold <;> try exact absurd h id
  rename_i stmt next s v
  rw [Wal.step, if_neg h] at hs
  cases hs
  exact ⟨rfl, rfl⟩

/-- A program that spares `e` goes on to spare it as long as it is not refused. -/
theorem Spares.step (h : p.Spares e) (hr : ¬ p.Refused db hold)
    (hs : db.step pool e me p hold = some (db', p', hold')) : p'.Spares e := by
  cases p with
  | done a =>
    cases hold <;> cases hs <;> exact h
  | fail e' =>
    cases hold <;> cases hs <;> exact h
  | openTx next =>
    cases hold with
    | idle =>
      obtain ⟨-, hs⟩ := Option.ite_none_right_eq_some.mp hs
      cases hs
      exact h
    | _ => cases hs
  | commit next =>
    cases hs
    exact h
  | rollback next =>
    cases hs
    exact h
  | select next =>
    cases hold with
    | idle =>
      obtain ⟨-, hs⟩ := Option.ite_none_right_eq_some.mp hs
      cases hs
      exact h _
    | _ =>
      cases hs
      exact h _
  | execute stmt next =>
    cases hold with
    | idle =>
      obtain ⟨-, hs⟩ := Option.ite_none_right_eq_some.mp hs
      exact spares_autocommit h (Option.some.inj hs)
    | deferred =>
      obtain ⟨-, hs⟩ := Option.ite_none_right_eq_some.mp hs
      exact spares_write h (Option.some.inj hs)
    | reading s v =>
      rw [Wal.step, if_pos (Decidable.not_not.mp hr)] at hs
      exact spares_write h (Option.some.inj hs)
    | writing s changed =>
      exact spares_write h (Option.some.inj hs)

end Steps
end Program
end Telegraph.Lib
