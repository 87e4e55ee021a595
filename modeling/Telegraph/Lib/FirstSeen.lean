import Mathlib.Data.List.Induction
import Mathlib.Data.List.Nodup

/-! The distinct items of a list, in order of first occurrence (`List.eraseDups`). -/

namespace Telegraph.Lib.FirstSeen
variable {α β : Type} [DecidableEq α] {a : α} {l m : List α}

theorem removeAll_known (h : a ∈ l) : [a].removeAll l = [] := by
  simp [List.removeAll, h]

theorem removeAll_new (h : a ∉ l) : [a].removeAll l = [a] := by
  simp [List.removeAll, h]

/-- An item that was there before adds nothing. -/
theorem eraseDups_known (h : a ∈ l) : (l ++ [a]).eraseDups = l.eraseDups := by
  rw [List.eraseDups_append, removeAll_known h, List.eraseDups_nil, List.append_nil]

theorem eraseDups_new (h : a ∉ l) : (l ++ [a]).eraseDups = l.eraseDups ++ [a] := by
  rw [List.eraseDups_append, removeAll_new h]
  rfl

/-- A loop that pushes what it has not pushed yet. -/
theorem foldl_push (f : β → α) (items : List β) (l : List α) :
    items.foldl (fun seen item => if seen.contains (f item) then seen else seen ++ [f item])
      l.eraseDups = (l ++ items.map f).eraseDups := by
  induction items generalizing l with
  | nil => simp
  | cons item items ih =>
    have hstep : (if l.eraseDups.contains (f item) then l.eraseDups else l.eraseDups ++ [f item]) =
        (l ++ [f item]).eraseDups := by
      by_cases h : f item ∈ l
      · simp [eraseDups_known h, h]
      · simp [eraseDups_new h, h]
    rw [List.foldl_cons, hstep, ih]
    simp

/-- The distinct items stand in order of first occurrence. -/
theorem eraseDups_ordered (l : List α) :
    l.eraseDups.Pairwise fun a b => l.idxOf a < l.idxOf b := by
  induction l using List.reverseRecOn with
  | nil => exact List.Pairwise.nil
  | append_singleton l x ih =>
    have hold : l.eraseDups.Pairwise fun a b => (l ++ [x]).idxOf a < (l ++ [x]).idxOf b := by
      refine ih.imp_of_mem fun ha hb hab => ?_
      rw [List.mem_eraseDups] at ha hb
      rwa [List.idxOf_append_of_mem ha, List.idxOf_append_of_mem hb]
    by_cases hx : x ∈ l
    · rwa [eraseDups_known hx]
    · rw [eraseDups_new hx, List.pairwise_append]
      refine ⟨hold, List.pairwise_singleton _ _, fun a ha b hb => ?_⟩
      rw [List.mem_eraseDups] at ha
      rw [List.mem_singleton.mp hb, List.idxOf_append_of_mem ha, List.idxOf_append_of_notMem hx]
      have hlt := List.idxOf_lt_length_of_mem ha
      omega

theorem eraseDups_nodup (l : List α) : l.eraseDups.Nodup :=
  (eraseDups_ordered l).imp fun hab he => by simp [he] at hab

theorem eraseDups_of_nodup (h : l.Nodup) : l.eraseDups = l := by
  induction l using List.reverseRecOn with
  | nil => rfl
  | append_singleton l x ih =>
    rw [List.nodup_append] at h
    have hx : x ∉ l := fun hx => h.2.2 x hx x (List.mem_singleton_self x) rfl
    rw [eraseDups_new hx, ih h.1]

/-- Repeating an item that was there before makes no difference. -/
theorem eraseDups_repeat (h : a ∈ l) : (l ++ a :: m).eraseDups = (l ++ m).eraseDups := by
  rw [List.eraseDups_append, List.eraseDups_append, List.cons_removeAll]
  simp [h]

end Telegraph.Lib.FirstSeen
