import Mathlib.Algebra.Order.BigOperators.Group.List
import Mathlib.Tactic.Push

namespace Telegraph.Lib

/-- What falls under few keys, and not often under one, is not much. -/
theorem length_le_of_keys {α κ : Type} [DecidableEq κ] {f : α → κ} {m : Nat} (keys : List κ)
    {l : List α} (hk : ∀ a ∈ l, f a ∈ keys) (hm : ∀ k ∈ keys, l.countP (fun a => f a = k) ≤ m) :
    l.length ≤ m * keys.length := by
  induction keys generalizing l with
  | nil =>
    cases l with
    | nil => exact Nat.zero_le _
    | cons a l => exact absurd (hk a (by simp)) (by simp)
  | cons k keys ih =>
    have hrest : (l.filter fun a => ¬ f a = k).length ≤ m * keys.length := by
      refine ih (fun a ha => ?_) fun k' hk' => ?_
      · obtain ⟨ha, hne⟩ := List.mem_filter.mp ha
        exact (List.mem_cons.mp (hk a ha)).resolve_left (by simpa using hne)
      · exact (List.filter_sublist.countP_le).trans (hm k' (List.mem_cons_of_mem _ hk'))
    have hsplit := List.length_eq_countP_add_countP (fun a => decide (f a = k)) (l := l)
    have hfirst := hm k (by simp)
    rw [← List.countP_eq_length_filter] at hrest
    rw [List.length_cons, Nat.mul_succ]
    simp only [decide_eq_true_eq] at hsplit
    omega

theorem countP_or_le {α : Type} (p q : α → Bool) (l : List α) :
    l.countP (fun a => p a || q a) ≤ l.countP p + l.countP q := by
  induction l with
  | nil => simp
  | cons a l ih =>
    simp only [List.countP_cons]
    cases p a <;> cases q a <;> simp <;> omega

/-- Those that have something to show are no more than what is shown. -/
theorem countP_any_le {α β : Type} (f : α → List β) (p : β → Bool) (l : List α) :
    l.countP (fun a => (f a).any p) ≤ (l.flatMap f).countP p := by
  induction l with
  | nil => simp
  | cons a l ih =>
    rw [List.flatMap_cons, List.countP_append, List.countP_cons]
    split
    · next ha =>
      have hpos : 0 < (f a).countP p := by
        obtain ⟨b, hb, hp⟩ := List.any_eq_true.mp ha
        exact List.countP_pos_iff.mpr ⟨b, hb, hp⟩
      omega
    · omega

/-- Of more rounds than there is work, one goes by without any. -/
theorem quiet_round {τ : Type} {busy : τ → Bool} {rounds : List (List τ)} {n : Nat}
    (hn : rounds.flatten.countP busy ≤ n) (hlen : n < rounds.length) :
    ∃ round ∈ rounds, ∀ t ∈ round, busy t = false := by
  by_contra hno
  push Not at hno
  have hpos : ∀ k ∈ rounds.map (List.countP busy), 1 ≤ k := by
    intro k hk
    obtain ⟨round, hr, rfl⟩ := List.mem_map.mp hk
    obtain ⟨t, ht, hb⟩ := hno round hr
    exact List.countP_pos_iff.mpr ⟨t, ht, by simpa using hb⟩
  have hsum := List.length_le_sum_of_one_le _ hpos
  rw [List.countP_flatten] at hn
  rw [List.length_map] at hsum
  omega

end Telegraph.Lib
