import Telegraph.Lib.Contract

namespace Telegraph.Lib.Program
variable {σ ε α β : Type}

/-- From `c` on, every statement that goes through changes the view as `R` allows,
and a return leaves `post`. -/
def Within (R : σ → σ → Prop) : Program σ ε α → Connection σ → (α → Connection σ → Prop) → Prop
  | done a, c, post => post a c
  | fail _, _, _ => True
  | openTx k, c, post => k.Within R { c with working := some c.committed } post
  | commit k, c, post => k.Within R ⟨c.view, none⟩ post
  | rollback k, c, post => k.Within R ⟨c.committed, none⟩ post
  | select k, c, post => (k c.view).Within R c post
  | execute stmt k, c, post => ∀ v n, stmt c.view = .ok (v, n) →
      R c.view v ∧ (k n).Within R (c.put v) post

/-- Every statement of the program, run on whatever view, changes it as `R` allows. -/
def Always (R : σ → σ → Prop) (p : Program σ ε α) : Prop :=
  ∀ c, p.Within R c fun _ _ => True

section Soundness
variable {R : σ → σ → Prop} {p : Program σ ε α} {c : Connection σ} {post : α → Connection σ → Prop}

theorem put_within (refl : ∀ s, R s s) (trans : ∀ {s t u}, R s t → R t u → R s u) {v : σ}
    (hc : R c.committed c.view) (hr : R c.view v) :
    R c.committed (c.put v).committed ∧ R (c.put v).committed (c.put v).view := by
  obtain ⟨s, w⟩ := c
  cases w with
  | none => exact ⟨hr, refl v⟩
  | some w => exact ⟨refl s, trans hc hr⟩

/-- What every statement may do, the whole program may have done. -/
theorem Within.exec (refl : ∀ s, R s s) (trans : ∀ {s t u}, R s t → R t u → R s u)
    (h : p.Within R c post) (hc : R c.committed c.view) :
    R c.committed (p.exec c).2.committed ∧ R (p.exec c).2.committed (p.exec c).2.view ∧
    ∀ a, (p.exec c).1 = .ok a → post a (p.exec c).2 := by
  induction p generalizing c with
  | done a =>
    refine ⟨refl _, hc, fun b hb => ?_⟩
    cases hb
    exact h
  | fail e => exact ⟨refl _, hc, fun a ha => by cases ha⟩
  | openTx k ih => exact ih h (refl _)
  | commit k ih =>
    obtain ⟨h₁, h₂, h₃⟩ := ih h (refl _)
    exact ⟨trans hc h₁, h₂, h₃⟩
  | rollback k ih => exact ih h (refl _)
  | select k ih => exact ih _ h hc
  | execute stmt k ih =>
    unfold Program.exec
    cases hs : stmt c.view with
    | error e => exact ⟨refl _, hc, fun a ha => by cases ha⟩
    | ok r =>
      obtain ⟨hr, hk⟩ := h r.1 r.2 hs
      obtain ⟨h₁, h₂⟩ := put_within refl trans hc hr
      obtain ⟨h₃, h₄, h₅⟩ := ih r.2 hk h₂
      exact ⟨trans h₁ h₃, h₄, h₅⟩

theorem Within.run (refl : ∀ s, R s s) (trans : ∀ {s t u}, R s t → R t u → R s u) {s : σ}
    (h : p.Within R ⟨s, none⟩ post) : R s (p.run s).1 :=
  (h.exec refl trans (refl s)).1

/-- What the statements of a program that returned have left. -/
theorem Within.returned {s s' : σ} {a : α} {P : α → σ → Prop}
    (h : p.Within (fun _ _ => True) ⟨s, none⟩ fun a c => P a c.committed)
    (hr : p.run s = (s', .ok a)) : P a s' := by
  have hp := (h.exec (fun _ => trivial) (fun _ _ => trivial) trivial).2.2
  unfold Program.run at hr
  obtain ⟨rfl, hok⟩ := Prod.mk.inj hr
  exact hp a hok

theorem Always.run (refl : ∀ s, R s s) (trans : ∀ {s t u}, R s t → R t u → R s u)
    (h : p.Always R) (s : σ) : R s (p.run s).1 :=
  (h ⟨s, none⟩).run refl trans

end Soundness

section Rules
variable {R : σ → σ → Prop} {c : Connection σ} {f : β → Program σ ε α}
  {post : α → Connection σ → Prop}

theorem within_bind {p : Program σ ε β} (h : p.Within R c fun b k => (f b).Within R k post) :
    (p.bind f).Within R c post := by
  induction p generalizing c with
  | done a => exact h
  | fail e => trivial
  | openTx k ih => exact ih h
  | commit k ih => exact ih h
  | rollback k ih => exact ih h
  | select k ih => exact ih _ h
  | execute stmt k ih =>
    intro v n hs
    exact ⟨(h v n hs).1, ih n (h v n hs).2⟩

theorem within_query {q : σ → β} (h : (f (q c.view)).Within R c post) :
    ((query q).bind f).Within R c post := h

theorem within_weaken {p : Program σ ε α} {post' : α → Connection σ → Prop}
    (h : p.Within R c post) (hp : ∀ a k, post a k → post' a k) : p.Within R c post' := by
  induction p generalizing c with
  | done a => exact hp a c h
  | fail e => trivial
  | openTx k ih => exact ih h
  | commit k ih => exact ih h
  | rollback k ih => exact ih h
  | select k ih => exact ih _ h
  | execute stmt k ih =>
    intro v n hs
    exact ⟨(h v n hs).1, ih n (h v n hs).2⟩

theorem always_true (p : Program σ ε α) : p.Always fun _ _ => True := by
  intro c
  induction p generalizing c with
  | done a => trivial
  | fail e => trivial
  | openTx k ih => exact ih _
  | commit k ih => exact ih _
  | rollback k ih => exact ih _
  | select k ih => exact ih _ c
  | execute stmt k ih => exact fun v n _ => ⟨trivial, ih n _⟩

theorem within_of_always {p : Program σ ε β} (hp : p.Always R)
    (h : ∀ b k, (f b).Within R k post) : (p.bind f).Within R c post :=
  within_bind (within_weaken (hp c) fun b k _ => h b k)

theorem within_modify {u : σ → σ} {rows : σ → Nat} {f : Nat → Program σ ε α} (hr : R c.view (u c.view))
    (h : (f (rows c.view)).Within R (c.put (u c.view)) post) :
    ((modify u rows).bind f).Within R c post := by
  intro v n hs
  cases hs
  exact ⟨hr, h⟩

theorem within_attempt {u : σ → Except ε σ} {f : Unit → Program σ ε α}
    (h : ∀ v, u c.view = .ok v → R c.view v ∧ (f ()).Within R (c.put v) post) :
    ((attempt u).bind f).Within R c post := by
  intro v n hs
  cases hu : u c.view with
  | error e => simp [hu, Except.map] at hs
  | ok w =>
    obtain ⟨rfl, rfl⟩ : w = v ∧ 1 = n := by simpa [hu, Except.map] using hs
    exact h w hu

theorem within_require {o : Option β} {e : ε} (h : ∀ b, o = some b → (f b).Within R c post) :
    ((require o e).bind f).Within R c post := by
  cases o with
  | none => trivial
  | some b => exact h b rfl

theorem always_done {a : α} : (done a : Program σ ε α).Always R := fun _ => trivial

theorem always_fail {e : ε} : (fail e : Program σ ε α).Always R := fun _ => trivial

theorem always_bind {p : Program σ ε β} (hp : p.Always R) (hf : ∀ b, (f b).Always R) :
    (p.bind f).Always R := fun _ => within_of_always hp hf

theorem always_begin : (beginTx : Program σ ε Unit).Always R := fun _ => trivial

theorem always_commit : (commitTx : Program σ ε Unit).Always R := fun _ => trivial

theorem always_drop : (dropTx : Program σ ε Unit).Always R := fun _ => trivial

theorem always_query {q : σ → β} : (query q : Program σ ε β).Always R := fun _ => trivial

theorem always_require {o : Option α} {e : ε} : (require o e : Program σ ε α).Always R := by
  intro c
  cases o <;> trivial

theorem always_modify {u : σ → σ} {rows : σ → Nat} (h : ∀ s, R s (u s)) :
    (modify u rows : Program σ ε Nat).Always R := by
  intro c v n hs
  cases hs
  exact ⟨h _, trivial⟩

theorem always_attempt {u : σ → Except ε σ} (h : ∀ s t, u s = .ok t → R s t) :
    (attempt u : Program σ ε Unit).Always R := by
  intro c v n hs
  cases hu : u c.view with
  | error e => simp [hu, Except.map] at hs
  | ok w =>
    obtain ⟨rfl, rfl⟩ : w = v ∧ 1 = n := by simpa [hu, Except.map] using hs
    exact ⟨h _ _ hu, trivial⟩

theorem always_execute {stmt : σ → Except ε (σ × Nat)}
    (h : ∀ s t n, stmt s = .ok (t, n) → R s t) : (execute stmt done).Always R :=
  fun _ v n hs => ⟨h _ v n hs, trivial⟩

end Rules
end Telegraph.Lib.Program
