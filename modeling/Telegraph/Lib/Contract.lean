import Telegraph.Lib.Program

namespace Telegraph.Lib.Program
variable {σ ε α β γ : Type}

/-- Run from `c`, the program returns with `ok` or fails with `bad`. -/
def Ensures (p : Program σ ε α) (c : Connection σ) (ok : α → Connection σ → Prop)
    (bad : ε → Connection σ → Prop) : Prop :=
  match p.exec c with
  | (.ok a, c') => ok a c'
  | (.error e, c') => bad e c'

/-- All or nothing: the program closes its transactions and returns with `ok` of
the committed state, or fails for a reason `bad` and leaves that state alone. -/
def Transacts (p : Program σ ε α) (s : σ) (ok : α → σ → Prop) (bad : ε → Prop) : Prop :=
  p.Ensures ⟨s, none⟩ (fun a c => c.working = none ∧ ok a c.committed)
    (fun e c => c.committed = s ∧ bad e)

section Rules
variable {c : Connection σ} {s w : σ} {f : β → Program σ ε α}
variable {ok : α → Connection σ → Prop} {bad : ε → Connection σ → Prop}

theorem ensures_then {p : Program σ ε β} (h : p.Ensures c (fun b c' => (f b).Ensures c' ok bad) bad) :
    (p.bind f).Ensures c ok bad := by
  unfold Ensures at h ⊢
  rw [exec_bind]
  cases he : p.exec c with
  | mk r c' =>
    rw [he] at h
    cases r with
    | ok b => exact h
    | error e => exact h

theorem ensures_weaken {p : Program σ ε α} {ok' : α → Connection σ → Prop}
    {bad' : ε → Connection σ → Prop} (h : p.Ensures c ok bad)
    (hok : ∀ a c', ok a c' → ok' a c') (hbad : ∀ e c', bad e c' → bad' e c') :
    p.Ensures c ok' bad' := by
  unfold Ensures at h ⊢
  cases he : p.exec c with
  | mk r c' =>
    rw [he] at h
    cases r with
    | ok a => exact hok a c' h
    | error e => exact hbad e c' h

theorem ensures_begin {f : Unit → Program σ ε α} (h : (f ()).Ensures ⟨s, some s⟩ ok bad) :
    ((beginTx : Program σ ε Unit).bind f).Ensures ⟨s, none⟩ ok bad := h

theorem ensures_commit {f : Unit → Program σ ε α} (h : (f ()).Ensures ⟨w, none⟩ ok bad) :
    ((commitTx : Program σ ε Unit).bind f).Ensures ⟨s, some w⟩ ok bad := h

theorem ensures_commit_last {ok : Unit → Connection σ → Prop} (h : ok () ⟨w, none⟩) :
    (commitTx : Program σ ε Unit).Ensures ⟨s, some w⟩ ok bad := h

theorem ensures_drop {f : Unit → Program σ ε α} (h : (f ()).Ensures ⟨s, none⟩ ok bad) :
    ((dropTx : Program σ ε Unit).bind f).Ensures ⟨s, some w⟩ ok bad := h

theorem ensures_query {q : σ → β} (h : (f (q w)).Ensures ⟨s, some w⟩ ok bad) :
    ((query q).bind f).Ensures ⟨s, some w⟩ ok bad := h

/-- A `SELECT` outside a transaction. -/
theorem ensures_read {q : σ → β} (h : (f (q s)).Ensures ⟨s, none⟩ ok bad) :
    ((query q).bind f).Ensures ⟨s, none⟩ ok bad := h

theorem ensures_modify {u : σ → σ} {rows : σ → Nat} {f : Nat → Program σ ε α}
    (h : (f (rows w)).Ensures ⟨s, some (u w)⟩ ok bad) :
    ((modify u rows).bind f).Ensures ⟨s, some w⟩ ok bad := h

theorem ensures_require {o : Option β} {e : ε} (hn : o = none → bad e c)
    (hs : ∀ b, o = some b → (f b).Ensures c ok bad) :
    ((require o e).bind f).Ensures c ok bad := by
  cases o with
  | none => exact hn rfl
  | some b => exact hs b rfl

theorem ensures_require_last {o : Option α} {e : ε} (hn : o = none → bad e c)
    (hs : ∀ a, o = some a → ok a c) : (require o e : Program σ ε α).Ensures c ok bad := by
  cases o with
  | none => exact hn rfl
  | some a => exact hs a rfl

theorem ensures_attempt {u : σ → Except ε σ} {f : Unit → Program σ ε α}
    (he : ∀ e, u w = .error e → bad e ⟨s, some w⟩)
    (hs : ∀ v, u w = .ok v → (f ()).Ensures ⟨s, some v⟩ ok bad) :
    ((attempt u).bind f).Ensures ⟨s, some w⟩ ok bad := by
  apply ensures_then
  unfold Ensures
  rw [exec_attempt, Connection.view_open]
  cases hu : u w with
  | ok v => exact hs v hu
  | error e => exact he e hu

/-- A statement outside a transaction commits by itself. -/
theorem ensures_statement {stmt : σ → Except ε (σ × Nat)} {k : Nat → Program σ ε α}
    (he : ∀ e, stmt s = .error e → bad e ⟨s, none⟩)
    (hs : ∀ v n, stmt s = .ok (v, n) → (k n).Ensures ⟨v, none⟩ ok bad) :
    (execute stmt k).Ensures ⟨s, none⟩ ok bad := by
  unfold Ensures exec
  rw [Connection.view_closed]
  cases hu : stmt s with
  | ok q => exact hs q.1 q.2 hu
  | error e => exact he e hu

end Rules

/-- Reads that follow a transaction see what it committed. -/
theorem Transacts.andThen {p : Program σ ε β} {f : β → Program σ ε α} {s : σ} {mid : β → σ → Prop}
    {ok : α → σ → Prop} {bad : ε → Prop} (h : p.Transacts s mid bad)
    (hf : ∀ b s', mid b s' → (f b).Ensures ⟨s', none⟩ (fun a c => c.working = none ∧ ok a c.committed)
      (fun e c => c.committed = s ∧ bad e)) : (p.bind f).Transacts s ok bad := by
  apply ensures_then
  apply ensures_weaken h
  · intro b c hb
    cases c with
    | mk s' w =>
      obtain ⟨hw, hm⟩ := hb
      cases hw
      exact hf b s' hm
  · exact fun _ _ => id

theorem Transacts.weaken {p : Program σ ε α} {s : σ} {ok ok' : α → σ → Prop} {bad bad' : ε → Prop}
    (h : p.Transacts s ok bad) (hok : ∀ a s', ok a s' → ok' a s') (hbad : ∀ e, bad e → bad' e) :
    p.Transacts s ok' bad' :=
  ensures_weaken h (fun a _ ha => ⟨ha.1, hok a _ ha.2⟩) (fun e _ he => ⟨he.1, hbad e he.2⟩)

theorem Transacts.run_ok {p : Program σ ε α} {s s' : σ} {ok : α → σ → Prop} {bad : ε → Prop} {a : α}
    (h : p.Transacts s ok bad) (hr : p.run s = (s', .ok a)) : ok a s' := by
  unfold Transacts Ensures at h
  unfold run at hr
  cases he : p.exec ⟨s, none⟩ with
  | mk r c =>
    rw [he] at h hr
    cases hr
    exact h.2

theorem Transacts.run_error {p : Program σ ε α} {s s' : σ} {ok : α → σ → Prop} {bad : ε → Prop}
    {e : ε} (h : p.Transacts s ok bad) (hr : p.run s = (s', .error e)) : s' = s ∧ bad e := by
  unfold Transacts Ensures at h
  unfold run at hr
  cases he : p.exec ⟨s, none⟩ with
  | mk r c =>
    rw [he] at h hr
    cases hr
    exact h

/-- Packing up the result changes nothing else. -/
theorem Transacts.returning {p : Program σ ε β} {s : σ} {mid : β → σ → Prop} {bad : ε → Prop}
    (h : p.Transacts s mid bad) (f : β → α) :
    (p.bind fun b => done (f b)).Transacts s (fun a s' => ∃ b, a = f b ∧ mid b s') bad :=
  h.andThen fun b _ hb => ⟨rfl, b, rfl, hb⟩

/-- One `SELECT`. -/
theorem query_transacts {q : σ → β} {s : σ} {bad : ε → Prop} :
    (query q : Program σ ε β).Transacts s (fun b s' => s' = s ∧ b = q s) bad :=
  ⟨rfl, rfl, rfl⟩

theorem Transacts.run_cases {p : Program σ ε α} {s : σ} {ok : α → σ → Prop} {bad : ε → Prop}
    (h : p.Transacts s ok bad) :
    (∃ a s', p.run s = (s', .ok a) ∧ ok a s') ∨ ∃ e, p.run s = (s, .error e) ∧ bad e := by
  cases hr : p.run s with
  | mk s' r =>
    cases r with
    | ok a => exact Or.inl ⟨a, s', rfl, h.run_ok hr⟩
    | error e =>
      obtain ⟨rfl, he⟩ := h.run_error hr
      exact Or.inr ⟨e, rfl, he⟩

/-- A program that returned ran both its parts. -/
theorem exec_bind_ok {p : Program σ ε β} {f : β → Program σ ε α} {c c' : Connection σ} {a : α}
    (h : (p.bind f).exec c = (.ok a, c')) : ∃ b k, p.exec c = (.ok b, k) ∧ (f b).exec k = (.ok a, c') := by
  rw [exec_bind] at h
  cases hp : p.exec c with
  | mk r k =>
    rw [hp] at h
    cases r with
    | ok b => exact ⟨b, k, rfl, h⟩
    | error e => cases h

theorem run_bind_ok {p : Program σ ε β} {f : β → Program σ ε α} {s s' : σ} {a : α}
    (h : (p.bind f).run s = (s', .ok a)) : ∃ b k k', (f b).exec k = (.ok a, k') := by
  unfold run at h
  cases hp : (p.bind f).exec ⟨s, none⟩ with
  | mk o k =>
    rw [hp] at h
    cases h
    obtain ⟨b, k', _, hb⟩ := exec_bind_ok hp
    exact ⟨b, k', k, hb⟩

/-- Reading each row of a result set in turn collects one value for each. -/
theorem ensures_collect {f : β → Program σ ε α} {R : β → α → Prop} {c : Connection σ}
    {bad : ε → Connection σ → Prop} {bs : List β}
    (h : ∀ b ∈ bs, (f b).Ensures c (fun a c' => c' = c ∧ R b a) bad) :
    (collect f bs).Ensures c (fun as c' => c' = c ∧ ∀ b ∈ bs, ∃ a ∈ as, R b a) bad := by
  induction bs with
  | nil => exact ⟨rfl, fun b hb => by cases hb⟩
  | cons b bs ih =>
    apply ensures_then
    refine ensures_weaken (h b (by simp)) ?_ fun _ _ => id
    rintro a c' ⟨rfl, hr⟩
    apply ensures_then
    refine ensures_weaken (ih fun b hb => h b (List.mem_cons_of_mem _ hb)) ?_ fun _ _ => id
    rintro as c' ⟨rfl, hrs⟩
    refine ⟨rfl, fun d hd => ?_⟩
    rcases List.mem_cons.mp hd with rfl | hd
    · exact ⟨a, by simp, hr⟩
    · obtain ⟨e, he, hre⟩ := hrs d hd
      exact ⟨e, List.mem_cons_of_mem _ he, hre⟩

/-- What every outcome of an all-or-nothing program keeps. -/
theorem Transacts.run_preserves {p : Program σ ε α} {s : σ} {ok : α → σ → Prop} {bad : ε → Prop}
    (h : p.Transacts s ok bad) (Inv : σ → Prop) (hs : Inv s) (hok : ∀ a s', ok a s' → Inv s') :
    Inv (p.run s).1 := by
  cases hr : p.run s with
  | mk s' r =>
    cases r with
    | ok a => exact hok a s' (h.run_ok hr)
    | error e => exact (h.run_error hr).1 ▸ hs

end Telegraph.Lib.Program
