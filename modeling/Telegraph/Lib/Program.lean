namespace Telegraph.Lib

/-- The statements one task issues to the database, in order. A transaction is
open from `openTx` to `commit` or `rollback`; failing inside it drops it too. -/
inductive Program (σ ε α : Type) where
  | done (a : α)
  | fail (e : ε)
  | openTx (next : Program σ ε α)
  | commit (next : Program σ ε α)
  | rollback (next : Program σ ε α)
  | select (next : σ → Program σ ε α)
  | execute (stmt : σ → Except ε (σ × Nat)) (next : Nat → Program σ ε α)

/-- What a connection sees: the committed state and, inside a transaction, its
own working copy. -/
structure Connection (σ : Type) where
  committed : σ
  working : Option σ

namespace Connection
variable {σ : Type}

def view (c : Connection σ) : σ := c.working.getD c.committed

/-- Outside a transaction a statement commits at once. -/
def put (c : Connection σ) (s : σ) : Connection σ :=
  match c.working with
  | none => { c with committed := s }
  | some _ => { c with working := some s }

@[simp] theorem view_open (s w : σ) : view ⟨s, some w⟩ = w := rfl
@[simp] theorem view_closed (s : σ) : view ⟨s, none⟩ = s := rfl
@[simp] theorem put_open (s w v : σ) : put ⟨s, some w⟩ v = ⟨s, some v⟩ := rfl
@[simp] theorem put_closed (s v : σ) : put ⟨s, none⟩ v = ⟨v, none⟩ := rfl

end Connection

namespace Program
variable {σ ε α β : Type}

def bind : Program σ ε α → (α → Program σ ε β) → Program σ ε β
  | done a, f => f a
  | fail e, _ => fail e
  | openTx k, f => openTx (k.bind f)
  | commit k, f => commit (k.bind f)
  | rollback k, f => rollback (k.bind f)
  | select k, f => select fun s => (k s).bind f
  | execute stmt k, f => execute stmt fun n => (k n).bind f

instance : Monad (Program σ ε) where
  pure := done
  bind := bind

theorem bind_assoc {γ : Type} (p : Program σ ε α) (f : α → Program σ ε β) (g : β → Program σ ε γ) :
    (p.bind f).bind g = p.bind fun a => (f a).bind g := by
  induction p with
  | done a => rfl
  | fail e => rfl
  | openTx k ih => exact congrArg openTx ih
  | commit k ih => exact congrArg commit ih
  | rollback k ih => exact congrArg rollback ih
  | select k ih => exact congrArg select (funext ih)
  | execute stmt k ih => exact congrArg (execute stmt) (funext ih)

/-- Read the current view with one `SELECT`. -/
def query (q : σ → β) : Program σ ε β := select fun s => done (q s)

/-- One `UPDATE` or `INSERT` that cannot fail; returns the rows affected. -/
def modify (f : σ → σ) (rows : σ → Nat) : Program σ ε Nat :=
  execute (fun s => .ok (f s, rows s)) done

/-- One statement that a constraint may refuse. -/
def attempt (f : σ → Except ε σ) : Program σ ε Unit :=
  execute (fun s => (f s).map fun s' => (s', 1)) fun _ => done ()

/-- `ok_or_else(..)?` -/
def require (o : Option α) (e : ε) : Program σ ε α :=
  match o with
  | some a => done a
  | none => fail e

/-- Run `f` for each item of a result set, in order. -/
def collect (f : β → Program σ ε α) : List β → Program σ ε (List α)
  | [] => done []
  | b :: bs => (f b).bind fun a => (collect f bs).bind fun as => done (a :: as)

def beginTx : Program σ ε Unit := openTx (done ())
def commitTx : Program σ ε Unit := commit (done ())

/-- A transaction handle dropped without `commit`. -/
def dropTx : Program σ ε Unit := rollback (done ())

/-- Run the statements with no other connection in between. -/
def exec : Program σ ε α → Connection σ → Except ε α × Connection σ
  | done a, c => (.ok a, c)
  | fail e, c => (.error e, c)
  | openTx k, c => k.exec { c with working := some c.committed }
  | commit k, c => k.exec ⟨c.view, none⟩
  | rollback k, c => k.exec ⟨c.committed, none⟩
  | select k, c => (k c.view).exec c
  | execute stmt k, c =>
    match stmt c.view with
    | .ok (s, n) => (k n).exec (c.put s)
    | .error e => (.error e, c)

/-- The whole task on a fresh connection; a transaction still open is rolled back. -/
def run (p : Program σ ε α) (s : σ) : σ × Except ε α :=
  ((p.exec ⟨s, none⟩).2.committed, (p.exec ⟨s, none⟩).1)

@[simp] theorem pure_eq (a : α) : (pure a : Program σ ε α) = done a := rfl
@[simp] theorem bind_eq (p : Program σ ε α) (f : α → Program σ ε β) : p >>= f = p.bind f := rfl

@[simp] theorem exec_done (a : α) (c : Connection σ) :
    (done a : Program σ ε α).exec c = (.ok a, c) := rfl
@[simp] theorem exec_fail (e : ε) (c : Connection σ) :
    (fail e : Program σ ε α).exec c = (.error e, c) := rfl
@[simp] theorem exec_beginTx (c : Connection σ) :
    (beginTx : Program σ ε Unit).exec c = (.ok (), { c with working := some c.committed }) := rfl
@[simp] theorem exec_commitTx (c : Connection σ) :
    (commitTx : Program σ ε Unit).exec c = (.ok (), ⟨c.view, none⟩) := rfl
@[simp] theorem exec_dropTx (c : Connection σ) :
    (dropTx : Program σ ε Unit).exec c = (.ok (), ⟨c.committed, none⟩) := rfl
@[simp] theorem exec_query (q : σ → β) (c : Connection σ) :
    (query q : Program σ ε β).exec c = (.ok (q c.view), c) := rfl
@[simp] theorem exec_modify (f : σ → σ) (rows : σ → Nat) (c : Connection σ) :
    (modify f rows : Program σ ε Nat).exec c = (.ok (rows c.view), c.put (f c.view)) := rfl

theorem exec_attempt (f : σ → Except ε σ) (c : Connection σ) :
    (attempt f : Program σ ε Unit).exec c =
      match f c.view with
      | .ok s => (.ok (), c.put s)
      | .error e => (.error e, c) := by
  unfold attempt exec
  cases h : f c.view <;> simp [h, Except.map, exec]

@[simp] theorem exec_attempt_ok {f : σ → Except ε σ} {c : Connection σ} {s : σ}
    (h : f c.view = .ok s) : (attempt f : Program σ ε Unit).exec c = (.ok (), c.put s) := by
  rw [exec_attempt, h]

@[simp] theorem exec_attempt_error {f : σ → Except ε σ} {c : Connection σ} {e : ε}
    (h : f c.view = .error e) : (attempt f : Program σ ε Unit).exec c = (.error e, c) := by
  rw [exec_attempt, h]

/-- Statements after a failure never run. -/
theorem exec_bind (p : Program σ ε α) (f : α → Program σ ε β) (c : Connection σ) :
    (p.bind f).exec c =
      match p.exec c with
      | (.ok a, c') => (f a).exec c'
      | (.error e, c') => (.error e, c') := by
  induction p generalizing c with
  | done a => rfl
  | fail e => rfl
  | openTx k ih => exact ih _
  | commit k ih => exact ih _
  | rollback k ih => exact ih _
  | select k ih => exact ih _ _
  | execute stmt k ih =>
    simp only [bind, exec]
    cases stmt c.view with
    | ok r => exact ih _ _
    | error e => rfl

end Program
end Telegraph.Lib
