import Mathlib.Data.List.Forall2

namespace Telegraph.Lib
variable {ε α β : Type}

/-- Check the items in order, each against those already admitted, and stop at the
first that is refused. -/
def admitAll (check : List β → α → Except ε β) : List α → List β → Except ε (List β)
  | [], admitted => .ok admitted
  | a :: rest, admitted => match check admitted a with
    | .ok b => admitAll check rest (admitted ++ [b])
    | .error e => .error e

namespace Admission

/-- `?` went on. -/
theorem bind_ok {x : Except ε α} {f : α → Except ε β} {b : β} (h : x >>= f = .ok b) :
    ∃ a, x = .ok a ∧ f a = .ok b := by
  cases x with
  | error e => cases h
  | ok a => exact ⟨a, rfl, h⟩

variable {check : List β → α → Except ε β} {raw : List α} {admitted out : List β}

theorem admitAll_cons {a : α} (h : admitAll check (a :: raw) admitted = .ok out) :
    ∃ b, check admitted a = .ok b ∧ admitAll check raw (admitted ++ [b]) = .ok out := by
  rw [admitAll] at h
  cases hc : check admitted a with
  | error e => simp [hc] at h
  | ok b => exact ⟨b, rfl, by simpa [hc] using h⟩

/-- Each admitted item stands for the raw item in its place. -/
theorem forall₂_of_admitAll {Q : α → β → Prop}
    (hq : ∀ before a b, check before a = .ok b → Q a b)
    (h : admitAll check raw admitted = .ok out) :
    ∃ fresh, out = admitted ++ fresh ∧ List.Forall₂ Q raw fresh := by
  induction raw generalizing admitted with
  | nil =>
    cases h
    exact ⟨[], by simp, .nil⟩
  | cons a rest ih =>
    obtain ⟨b, hb, hrest⟩ := admitAll_cons h
    obtain ⟨fresh, rfl, hf⟩ := ih hrest
    exact ⟨b :: fresh, by simp, .cons (hq _ _ _ hb) hf⟩

/-- What the check makes sure of against each item before it holds of every pair. -/
theorem pairwise_of_admitAll {R : β → β → Prop}
    (hr : ∀ before a b, check before a = .ok b → ∀ c ∈ before, R c b)
    (old : admitted.Pairwise R) (h : admitAll check raw admitted = .ok out) : out.Pairwise R := by
  induction raw generalizing admitted with
  | nil =>
    cases h
    exact old
  | cons a rest ih =>
    obtain ⟨b, hb, hrest⟩ := admitAll_cons h
    refine ih ?_ hrest
    rw [List.pairwise_append]
    exact ⟨old, List.pairwise_singleton R b,
      fun c hc d hd => List.mem_singleton.mp hd ▸ hr _ _ _ hb c hc⟩

theorem forall₂_of_mapM {f : α → Except ε β} {items : List α} {out : List β}
    (h : items.mapM f = .ok out) : List.Forall₂ (fun a b => f a = .ok b) items out := by
  induction items generalizing out with
  | nil =>
    cases h
    exact .nil
  | cons a rest ih =>
    rw [List.mapM_cons] at h
    obtain ⟨b, hb, h⟩ := bind_ok h
    obtain ⟨bs, hbs, h⟩ := bind_ok h
    cases h
    exact .cons hb (ih hbs)

theorem exists_of_forall₂ {R : α → β → Prop} {l : List α} {m : List β} (h : List.Forall₂ R l m)
    {a : α} (ha : a ∈ l) : ∃ b ∈ m, R a b := by
  induction h with
  | nil => simp at ha
  | cons hr _ ih =>
    rcases List.mem_cons.mp ha with rfl | ha
    · exact ⟨_, List.mem_cons_self, hr⟩
    · obtain ⟨b, hb, hab⟩ := ih ha
      exact ⟨b, List.mem_cons_of_mem _ hb, hab⟩

/-- Where no two entries share a key, looking up an entry's key finds the entry. -/
theorem find?_own {κ : Type} [DecidableEq κ] {key : β → κ} {entries : List β} {b : β}
    (distinct : entries.Pairwise fun c d => key c ≠ key d) (hb : b ∈ entries) :
    entries.find? (fun c => key c == key b) = some b := by
  induction entries with
  | nil => simp at hb
  | cons d rest ih =>
    rw [List.pairwise_cons] at distinct
    rcases List.mem_cons.mp hb with rfl | hb
    · exact List.find?_cons_of_pos (by simp)
    · rw [List.find?_cons_of_neg (by simpa using distinct.1 b hb), ih distinct.2 hb]

end Admission
end Telegraph.Lib
