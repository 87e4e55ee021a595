import Mathlib.Data.List.DropRight

namespace Telegraph.Lib
variable {α : Type}

/-- Take the items that satisfy `p` off both ends. -/
def strip (p : α → Bool) (l : List α) : List α := (l.dropWhile p).rdropWhile p

namespace Strip
variable {p : α → Bool} {l lead tail : List α}

theorem rdropWhile_append (h : ∀ a ∈ tail, p a = true) :
    (l ++ tail).rdropWhile p = l.rdropWhile p := by
  rw [List.rdropWhile, List.reverse_append,
    List.dropWhile_append_of_pos fun a ha => h a (List.mem_reverse.mp ha), List.rdropWhile]

/-- What stands around a list and satisfies `p` makes no difference. -/
theorem strip_pad (hl : ∀ a ∈ lead, p a = true) (ht : ∀ a ∈ tail, p a = true) :
    strip p (lead ++ l ++ tail) = strip p l := by
  rw [List.append_assoc, strip, List.dropWhile_append_of_pos hl, List.dropWhile_append]
  split
  · next hall =>
    have hnil : l.dropWhile p = [] := by simpa using hall
    rw [strip, hnil, List.dropWhile_eq_nil_iff.mpr ht]
  · rw [rdropWhile_append ht, strip]

/-- What one end loses, the whole loses anyway. -/
theorem strip_dropWhile : strip p (l.dropWhile p) = strip p l := by
  rw [strip, List.dropWhile_idempotent, strip]

theorem strip_rdropWhile : strip p (l.rdropWhile p) = strip p l := by
  have htail : ∀ a ∈ (l.reverse.takeWhile p).reverse, p a = true := by
    intro a ha
    exact List.mem_takeWhile_imp (List.mem_reverse.mp ha)
  have hsplit : l.rdropWhile p ++ (l.reverse.takeWhile p).reverse = l := by
    rw [List.rdropWhile, ← List.reverse_append, List.takeWhile_append_dropWhile, List.reverse_reverse]
  have hlead : ∀ a ∈ ([] : List α), p a = true := by simp
  conv_rhs => rw [← hsplit, ← List.nil_append (l.rdropWhile p), strip_pad hlead htail]

/-- Around an item that stays, each side loses its own end. -/
theorem strip_around {a : α} {r : List α} (ha : p a = false) :
    strip p (l ++ a :: r) = l.dropWhile p ++ a :: r.rdropWhile p := by
  have hfront : (l ++ a :: r).dropWhile p = l.dropWhile p ++ a :: r := by
    rw [List.dropWhile_append]
    split
    · next hall => rw [List.isEmpty_iff.mp hall, List.dropWhile_cons_of_neg (by simp [ha]), List.nil_append]
    · rfl
  rw [strip, hfront, List.rdropWhile, List.reverse_append, List.reverse_cons, List.append_assoc,
    List.dropWhile_append]
  split
  · next hall =>
    have hnil := List.isEmpty_iff.mp hall
    rw [List.singleton_append, List.dropWhile_cons_of_neg (by simp [ha])]
    simp [List.rdropWhile, hnil]
  · simp [List.rdropWhile]

/-- Where nothing satisfies `p` nothing comes off. -/
theorem strip_of_none (h : ∀ a ∈ l, p a = false) : strip p l = l := by
  have hfront : l.dropWhile p = l := by
    cases l with
    | nil => rfl
    | cons a l => rw [List.dropWhile_cons_of_neg (by simp [h a (List.mem_cons_self ..)])]
  rw [strip, hfront, List.rdropWhile_eq_self_iff]
  intro hne
  simp [h _ (List.getLast_mem hne)]

/-- What does not satisfy `p` stays. -/
theorem filter_strip : (strip p l).filter (!p ·) = l.filter (!p ·) := by
  have hdrop (l : List α) : (l.dropWhile p).filter (!p ·) = l.filter (!p ·) := by
    induction l with
    | nil => rfl
    | cons a l ih => cases h : p a <;> simp [h, ih]
  rw [strip, List.rdropWhile, List.filter_reverse, hdrop, ← List.filter_reverse, List.reverse_reverse,
    hdrop]

theorem mem_strip {a : α} (h : p a = false) : a ∈ strip p l ↔ a ∈ l := by
  have hfilter : a ∈ (strip p l).filter (!p ·) ↔ a ∈ l.filter (!p ·) := by rw [filter_strip]
  simpa [h] using hfilter

theorem dropWhile_map {β : Type} {q : β → Bool} {f : α → β} (h : ∀ a ∈ l, q (f a) = p a) :
    (l.map f).dropWhile q = (l.dropWhile p).map f := by
  induction l with
  | nil => rfl
  | cons a l ih =>
    rw [List.map_cons, List.dropWhile_cons, List.dropWhile_cons, h a List.mem_cons_self,
      ih fun b hb => h b (List.mem_cons_of_mem a hb)]
    split <;> rfl

/-- A change that `p` does not see goes through. -/
theorem strip_map {β : Type} {q : β → Bool} {f : α → β} (h : ∀ a ∈ l, q (f a) = p a) :
    strip q (l.map f) = (strip p l).map f := by
  have hback : ∀ a ∈ (l.dropWhile p).reverse, q (f a) = p a :=
    fun a ha => h a ((List.dropWhile_sublist p).subset (List.mem_reverse.mp ha))
  rw [strip, dropWhile_map h, List.rdropWhile, ← List.map_reverse, dropWhile_map hback,
    ← List.map_reverse, strip, List.rdropWhile]

theorem strip_subset : strip p l ⊆ l := by
  intro a ha
  have hmem : a ∈ (l.dropWhile p).reverse.dropWhile p := List.mem_reverse.mp ha
  exact (List.dropWhile_sublist p).subset (List.mem_reverse.mp ((List.dropWhile_sublist p).subset hmem))

end Strip
end Telegraph.Lib
