import Telegraph.Lib.Team

namespace Telegraph.Lib

namespace Task
variable {κ : Type} {ans : κ → Type} {ε σ α α' β β' : Type}

/-- Two tasks that make the same calls as long as the answers one is told differ from
the other's by `blur`, and end alike: with the same error or with results in `R`. -/
inductive Alike (blur : (c : κ) → ans c → ans c) (R : α → α' → Prop) :
    Task κ ans ε α → Task κ ans ε α' → Prop where
  | done {a : α} {a' : α'} : R a a' → Alike blur R (done a) (done a')
  | fail (e : ε) : Alike blur R (fail e) (fail e)
  | call {c : κ} {next : Except ε (ans c) → Task κ ans ε α} {next' : Except ε (ans c) → Task κ ans ε α'} :
      (∀ r, Alike blur R (next r) (next' (r.map (blur c)))) → Alike blur R (call c next) (call c next')

/-- Ends in `R`, or in one error. -/
def EndAlike (R : α → α' → Prop) (r : Except ε α) (r' : Except ε α') : Prop :=
  (∃ a a', r = .ok a ∧ r' = .ok a' ∧ R a a') ∨ ∃ e, r = .error e ∧ r' = .error e

section Rules
variable {blur : (c : κ) → ans c → ans c} {R : α → α' → Prop} {S : β → β' → Prop}
variable {t : Task κ ans ε α} {t' : Task κ ans ε α'}

theorem Alike.bind {f : α → Task κ ans ε β} {f' : α' → Task κ ans ε β'} (h : t.Alike blur R t')
    (hf : ∀ a a', R a a' → (f a).Alike blur S (f' a')) : (t.bind f).Alike blur S (t'.bind f') := by
  induction h with
  | done ha => exact hf _ _ ha
  | fail e => exact .fail e
  | call _ ih => exact .call ih

theorem Alike.catching {f : ε → Task κ ans ε α} {f' : ε → Task κ ans ε α'} (h : t.Alike blur R t')
    (hf : ∀ e, (f e).Alike blur R (f' e)) : (t.catching f).Alike blur R (t'.catching f') := by
  induction h with
  | done ha => exact .done ha
  | fail e => exact hf e
  | call _ ih => exact .call ih

theorem alike_lift {r : Except ε α} {r' : Except ε α'} (h : EndAlike R r r') :
    (lift r : Task κ ans ε α).Alike blur R (lift r') := by
  rcases h with ⟨a, a', rfl, rfl, ha⟩ | ⟨e, rfl, rfl⟩
  · exact .done ha
  · exact .fail e

theorem alike_perform (c : κ) :
    (perform c : Task κ ans ε (ans c)).Alike blur (fun a a' => a' = blur c a) (perform c) := by
  refine .call fun r => alike_lift ?_
  cases r with
  | ok a => exact .inl ⟨a, _, rfl, rfl, rfl⟩
  | error e => exact .inr ⟨e, rfl, rfl⟩

theorem alike_ignore (c : κ) :
    (ignore c : Task κ ans ε Unit).Alike blur Eq (ignore c) := .call fun _ => .done rfl

theorem alike_require {o : Option α} {o' : Option α'} (e : ε) (h : Option.Rel R o o') :
    (require o e : Task κ ans ε α).Alike blur R (require o' e) := by
  cases h with
  | some ha => exact .done ha
  | none => exact .fail e

/-- A task none of whose answers is blurred is like itself. -/
theorem Only.alike (h : t.Only fun c => blur c = id) : t.Alike blur Eq t := by
  induction t with
  | done a => exact .done rfl
  | fail e => exact .fail e
  | call c next ih =>
    refine .call fun r => ?_
    have hr : r.map (blur c) = r := by rw [h.1, Except.map_id, id_eq]
    rw [hr]
    exact ih r (h.2 r)

end Rules
end Task

/-- What of the shared state a machine's calls tell and change can be had from `abs` of
it, up to a `blur` of the answers. -/
structure Machine.Abstracts {κ : Type} {ans : κ → Type} {ε σ : Type} (m : Machine κ ans ε σ) (abs : σ → σ)
    (blur : (c : κ) → ans c → ans c) : Prop where
  answer : ∀ c s, m.answer c (abs s) = (abs (m.answer c s).1, (m.answer c s).2.map (blur c))
  breaks : ∀ c k s s' e, m.breaks c k s = some (s', e) → m.breaks c k (abs s) = some (abs s', e)

/-- The same terms, about `abs` of the states. -/
def Terms.along {κ σ : Type} (T : Terms κ σ) (abs : σ → σ) : Terms κ σ where
  rely s s' := T.rely (abs s) (abs s')
  guar s s' := T.guar (abs s) (abs s')
  may c s := T.may c (abs s)
  refl s := T.refl (abs s)
  trans := T.trans

namespace Task
variable {κ : Type} {ans : κ → Type} {ε σ α α' : Type} {m : Machine κ ans ε σ} {T : Terms κ σ}
variable {abs : σ → σ} {blur : (c : κ) → ans c → ans c} {R : α → α' → Prop}
variable {post : Except ε α' → σ → Prop} {t : Task κ ans ε α} {t' : Task κ ans ε α'} {s : σ}

/-- A task is safe if one alike is, from the abstract state. -/
theorem Safe.along (hm : m.Abstracts abs blur) (ha : t.Alike blur R t') (h : t'.Safe m T post (abs s)) :
    t.Safe m (T.along abs) (fun r s => ∃ r', EndAlike R r r' ∧ post r' (abs s)) s := by
  induction ha generalizing s with
  | @done a a' hR => exact fun s' hs => ⟨_, .inl ⟨a, a', rfl, rfl, hR⟩, h _ hs⟩
  | fail e => exact fun s' hs => ⟨_, .inr ⟨e, rfl, rfl⟩, h _ hs⟩
  | @call c next next' _ ih =>
    intro s' hs
    obtain ⟨⟨hg, hn⟩, hb⟩ := h _ hs
    rw [hm.answer c s'] at hg hn
    refine ⟨⟨hg, ih _ hn⟩, fun k s'' e hmay he => ?_⟩
    obtain ⟨hg', hn'⟩ := hb k _ e hmay (hm.breaks c k s' s'' e he)
    exact ⟨hg', ih (.error e) hn'⟩

end Task
end Telegraph.Lib
