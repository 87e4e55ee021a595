import Mathlib.Data.List.SplitBy

/-! A loop that collects consecutive items of one key and hands each group on when the
key changes, against the runs of the list (`List.splitBy`). -/

namespace Telegraph.Lib.Grouping
variable {α κ σ : Type} [DecidableEq κ] (key : α → κ) (flush : σ → κ → List α → σ)

/-- The variables of the loop: what was handed on, and the group that is open. -/
structure Open (α κ σ : Type) where
  out : σ
  key : κ
  group : List α

def Open.add (s : Open α κ σ) (a : α) : Open α κ σ :=
  if key a ≠ s.key then ⟨flush s.out s.key s.group, key a, [a]⟩
  else ⟨s.out, s.key, s.group ++ [a]⟩

/-- The flush after the last item. -/
def Open.close (s : Open α κ σ) : σ := flush s.out s.key s.group

/-- The maximal runs of items with one key. -/
def runs (l : List α) : List (List α) := l.splitBy fun a b => decide (key a = key b)

/-- Hand a run on under the key of its items. -/
def flushRun (out : σ) (run : List α) : σ :=
  run.head?.elim out fun a => flush out (key a) run

section Loop
variable {key flush} {a : α} {k : κ} {group l : List α} {out : σ}

/-- Items of one key are one run. -/
theorem runs_group (hne : group ≠ []) (h : ∀ b ∈ group, key b = k) : runs key group = [group] := by
  apply List.splitBy_of_isChain hne
  apply List.Pairwise.isChain
  rw [List.pairwise_iff_forall_sublist]
  intro a b hab
  have hsub := hab.subset
  simp [h a (hsub (by simp)), h b (hsub (by simp))]

/-- A run ends where the key changes. -/
theorem runs_append (hne : group ≠ []) (h : ∀ b ∈ group, key b = k) (ha : key a ≠ k) :
    runs key (group ++ a :: l) = group :: runs key (a :: l) := by
  have hend : ∀ x ∈ group.getLast?, decide (key x = key a) = false := by
    intro x hx
    rw [h x (List.mem_of_getLast? hx)]
    exact decide_eq_false (Ne.symm ha)
  have hgroup := runs_group hne h
  simp only [runs] at hgroup ⊢
  rw [List.splitBy_append_cons l hend, hgroup, List.singleton_append]

omit [DecidableEq κ] in
theorem flushRun_group (hne : group ≠ []) (h : ∀ b ∈ group, key b = k) :
    flushRun key flush out group = flush out k group := by
  cases group with
  | nil => exact absurd rfl hne
  | cons a group => rw [flushRun, List.head?_cons, Option.elim_some, h a (List.mem_cons_self ..)]

/-- From an open group on, the loop hands on the runs of the group and the rest. -/
theorem close_foldl (hne : group ≠ []) (h : ∀ b ∈ group, key b = k) :
    (l.foldl (Open.add key flush) ⟨out, k, group⟩).close flush =
      (runs key (group ++ l)).foldl (flushRun key flush) out := by
  induction l generalizing group k out with
  | nil =>
    rw [List.append_nil, runs_group hne h, List.foldl_cons, List.foldl_nil, flushRun_group hne h]
    rfl
  | cons a l ih =>
    rw [List.foldl_cons]
    by_cases ha : key a = k
    · have hadd : (⟨out, k, group⟩ : Open α κ σ).add key flush a = ⟨out, k, group ++ [a]⟩ := by
        simp [Open.add, ha]
      have hkeys : ∀ b ∈ group ++ [a], key b = k := by
        intro b hb
        rcases List.mem_append.mp hb with hb | hb
        · exact h b hb
        · rw [List.mem_singleton.mp hb, ha]
      rw [hadd, ih (by simp) hkeys, List.append_assoc, List.singleton_append]
    · have hadd : (⟨out, k, group⟩ : Open α κ σ).add key flush a =
          ⟨flush out k group, key a, [a]⟩ := by
        simp [Open.add, ha]
      rw [hadd, ih (by simp) (by simp), runs_append hne h ha, List.foldl_cons, flushRun_group hne h,
        List.singleton_append]

/-- The whole loop, from a key with nothing to hand on. -/
theorem close_foldl_start (hempty : ∀ k, flush out k [] = out) :
    (l.foldl (Open.add key flush) ⟨out, k, []⟩).close flush =
      (runs key l).foldl (flushRun key flush) out := by
  cases l with
  | nil => exact hempty k
  | cons a l =>
    have hadd : (⟨out, k, []⟩ : Open α κ σ).add key flush a = ⟨out, key a, [a]⟩ := by
      by_cases ha : key a = k <;> simp [Open.add, ha, hempty]
    rw [List.foldl_cons, hadd, close_foldl (by simp) (by simp), List.singleton_append]

/-- The runs are all of the list. -/
theorem flatten_runs : (runs key l).flatten = l := List.flatten_splitBy _ l

end Loop
end Telegraph.Lib.Grouping
