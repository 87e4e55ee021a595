namespace Telegraph.Lib

/-- A task as the calls it makes, one at a time. It is told the answer to each, an
error included, and decides what to do next. -/
inductive Task (κ : Type) (ans : κ → Type) (ε α : Type) where
  | done (a : α)
  | fail (e : ε)
  | call (c : κ) (next : Except ε (ans c) → Task κ ans ε α)

namespace Task
variable {κ : Type} {ans : κ → Type} {ε α β : Type}

def bind : Task κ ans ε α → (α → Task κ ans ε β) → Task κ ans ε β
  | done a, f => f a
  | fail e, _ => fail e
  | call c next, f => call c fun r => (next r).bind f

instance : Monad (Task κ ans ε) where
  pure := done
  bind := bind

/-- Run `h` on the error the task ends with, if it does. -/
def catching : Task κ ans ε α → (ε → Task κ ans ε α) → Task κ ans ε α
  | done a, _ => done a
  | fail e, h => h e
  | call c next, h => call c fun r => (next r).catching h

def lift : Except ε α → Task κ ans ε α
  | .ok a => done a
  | .error e => fail e

/-- One call whose error is the task's own. -/
def perform (c : κ) : Task κ ans ε (ans c) := call c lift

/-- One call whose outcome does not matter. -/
def ignore (c : κ) : Task κ ans ε Unit := call c fun _ => done ()

/-- `ok_or(..)?` -/
def require (o : Option α) (e : ε) : Task κ ans ε α :=
  match o with
  | some a => done a
  | none => fail e

@[simp] theorem pure_eq (a : α) : (pure a : Task κ ans ε α) = done a := rfl
@[simp] theorem bind_eq (p : Task κ ans ε α) (f : α → Task κ ans ε β) : p >>= f = p.bind f := rfl
@[simp] theorem lift_ok (a : α) : (lift (.ok a) : Task κ ans ε α) = done a := rfl
@[simp] theorem lift_error (e : ε) : (lift (.error e) : Task κ ans ε α) = fail e := rfl

/-- Whatever it is answered, the task fails. -/
def Fails : Task κ ans ε α → Prop
  | done _ => False
  | fail _ => True
  | call _ next => ∀ r, (next r).Fails

/-- No error of a call in `p` is ever swallowed. -/
def Propagates (p : κ → Prop) : Task κ ans ε α → Prop
  | done _ => True
  | fail _ => True
  | call c next => (p c → ∀ e, (next (.error e)).Fails) ∧ ∀ r, (next r).Propagates p

theorem Fails.bind {t : Task κ ans ε α} (h : t.Fails) (f : α → Task κ ans ε β) : (t.bind f).Fails := by
  induction t with
  | done a => cases h
  | fail e => trivial
  | call c next ih => exact fun r => ih r (h r)

theorem Fails.catching {t : Task κ ans ε α} (h : t.Fails) {f : ε → Task κ ans ε α}
    (hf : ∀ e, (f e).Fails) : (t.catching f).Fails := by
  induction t with
  | done a => cases h
  | fail e => exact hf e
  | call c next ih => exact fun r => ih r (h r)

section Rules
variable {p : κ → Prop}

theorem propagates_bind {t : Task κ ans ε α} {f : α → Task κ ans ε β} (h : t.Propagates p)
    (hf : ∀ a, (f a).Propagates p) : (t.bind f).Propagates p := by
  induction t with
  | done a => exact hf a
  | fail e => trivial
  | call c next ih => exact ⟨fun hp e => (h.1 hp e).bind f, fun r => ih r (h.2 r)⟩

/-- A handler that only tidies up hides nothing. -/
theorem propagates_catching {t : Task κ ans ε α} {f : ε → Task κ ans ε α} (h : t.Propagates p)
    (hf : ∀ e, (f e).Fails) (hp : ∀ e, (f e).Propagates p) : (t.catching f).Propagates p := by
  induction t with
  | done a => trivial
  | fail e => exact hp e
  | call c next ih => exact ⟨fun hc e => (h.1 hc e).catching hf, fun r => ih r (h.2 r)⟩

theorem propagates_lift (r : Except ε α) : (lift r : Task κ ans ε α).Propagates p := by
  cases r <;> trivial

theorem propagates_perform (c : κ) : (perform c : Task κ ans ε (ans c)).Propagates p :=
  ⟨fun _ _ => trivial, propagates_lift⟩

theorem propagates_ignore {c : κ} (h : ¬ p c) : (ignore c : Task κ ans ε Unit).Propagates p :=
  ⟨fun hp => absurd hp h, fun _ => trivial⟩

theorem propagates_require (o : Option α) (e : ε) : (require o e : Task κ ans ε α).Propagates p := by
  cases o <;> trivial

/-- Every call the task may make is one of these. -/
def Only (p : κ → Prop) : Task κ ans ε α → Prop
  | done _ => True
  | fail _ => True
  | call c next => p c ∧ ∀ r, (next r).Only p

theorem only_bind {t : Task κ ans ε α} {f : α → Task κ ans ε β} (h : t.Only p)
    (hf : ∀ a, (f a).Only p) : (t.bind f).Only p := by
  induction t with
  | done a => exact hf a
  | fail e => trivial
  | call c next ih => exact ⟨h.1, fun r => ih r (h.2 r)⟩

theorem only_catching {t : Task κ ans ε α} {f : ε → Task κ ans ε α} (h : t.Only p)
    (hf : ∀ e, (f e).Only p) : (t.catching f).Only p := by
  induction t with
  | done a => trivial
  | fail e => exact hf e
  | call c next ih => exact ⟨h.1, fun r => ih r (h.2 r)⟩

theorem only_lift (r : Except ε α) : (lift r : Task κ ans ε α).Only p := by
  cases r <;> trivial

theorem only_perform {c : κ} (h : p c) : (perform c : Task κ ans ε (ans c)).Only p :=
  ⟨h, only_lift⟩

theorem only_ignore {c : κ} (h : p c) : (ignore c : Task κ ans ε Unit).Only p :=
  ⟨h, fun _ => trivial⟩

theorem only_require (o : Option α) (e : ε) : (require o e : Task κ ans ε α).Only p := by
  cases o <;> trivial

/-- After a call in `p` all calls are in `q`. -/
def Settles (p q : κ → Prop) : Task κ ans ε α → Prop
  | done _ => True
  | fail _ => True
  | call c next => (p c → ∀ r, (next r).Only q) ∧ ∀ r, (next r).Settles p q

variable {q : κ → Prop}

/-- Before the first such call anything goes. -/
theorem settles_bind {t : Task κ ans ε α} {f : α → Task κ ans ε β} (h : t.Only fun c => ¬ p c)
    (hf : ∀ a, (f a).Settles p q) : (t.bind f).Settles p q := by
  induction t with
  | done a => exact hf a
  | fail e => trivial
  | call c next ih => exact ⟨fun hp => absurd hp h.1, fun r => ih r (h.2 r)⟩

theorem settles_of_only {t : Task κ ans ε α} (h : t.Only q) (hq : ∀ c, q c → ¬ p c) : t.Settles p q := by
  induction t with
  | done a => trivial
  | fail e => trivial
  | call c next ih => exact ⟨fun hp => absurd hp (hq c h.1), fun r => ih r (h.2 r)⟩

theorem settles_catching {t : Task κ ans ε α} {f : ε → Task κ ans ε α} (h : t.Settles p q)
    (hf : ∀ e, (f e).Only q) (hq : ∀ c, q c → ¬ p c) : (t.catching f).Settles p q := by
  induction t with
  | done a => trivial
  | fail e => exact settles_of_only (hf e) hq
  | call c next ih => exact ⟨fun hp r => only_catching (h.1 hp r) hf, fun r => ih r (h.2 r)⟩

end Rules
end Task
end Telegraph.Lib
