import Mathlib.Tactic.ByContra

namespace Telegraph.Lib

/-- Rows in insertion order, no two of them in conflict under the schema's
unique constraints. -/
structure Table (ρ : Type) (clash : ρ → ρ → Bool) where
  rows : List ρ
  distinct : rows.Pairwise fun a b => clash a b = false

namespace Table
variable {ρ : Type} {clash : ρ → ρ → Bool}

theorem ext_rows {t u : Table ρ clash} (h : t.rows = u.rows) : t = u := by
  cases t
  cases u
  cases h
  rfl

def empty : Table ρ clash := ⟨[], List.Pairwise.nil⟩

/-- `INSERT`: refused when a unique constraint already has a conflicting row. -/
def insert (t : Table ρ clash) (r : ρ) : Option (Table ρ clash) :=
  if h : ∀ a ∈ t.rows, clash a r = false then
    some ⟨t.rows ++ [r], by
      rw [List.pairwise_append]
      exact ⟨t.distinct, List.pairwise_singleton _ _, fun a ha b hb => List.mem_singleton.mp hb ▸ h a ha⟩⟩
  else none

/-- A row change that leaves every unique column alone. -/
def KeepsKeys (clash : ρ → ρ → Bool) (f : ρ → ρ) : Prop :=
  ∀ a b, clash (f a) b = clash a b ∧ clash a (f b) = clash a b

/-- `UPDATE … SET f WHERE p`. -/
def update (t : Table ρ clash) (p : ρ → Bool) (f : ρ → ρ) (h : KeepsKeys clash f) :
    Table ρ clash where
  rows := t.rows.map fun r => if p r then f r else r
  distinct := by
    rw [List.pairwise_map]
    refine t.distinct.imp ?_
    intro a b hab
    split <;> split <;> simp [h _ _, hab]

/-- `DELETE … WHERE p` -/
def remove (t : Table ρ clash) (p : ρ → Bool) : Table ρ clash :=
  ⟨t.rows.filter (!p ·), t.distinct.filter _⟩

/-- The number of rows an `UPDATE … WHERE p` reports. -/
def count (t : Table ρ clash) (p : ρ → Bool) : Nat := (t.rows.filter p).length

def find (t : Table ρ clash) (q : ρ → Bool) : Option ρ := t.rows.find? q

@[simp] theorem rows_empty : (empty : Table ρ clash).rows = [] := rfl

theorem insert_some {t t' : Table ρ clash} {r : ρ} (h : t.insert r = some t') :
    t'.rows = t.rows ++ [r] ∧ ∀ a ∈ t.rows, clash a r = false := by
  unfold insert at h
  split at h
  · cases h
    exact ⟨rfl, by assumption⟩
  · cases h

theorem insert_none {t : Table ρ clash} {r : ρ} (h : t.insert r = none) :
    ∃ a ∈ t.rows, clash a r = true := by
  unfold insert at h
  split at h
  · cases h
  · rename_i hn
    simpa using hn

theorem insert_fresh {t : Table ρ clash} {r : ρ} (h : ∀ a ∈ t.rows, clash a r = false) :
    ∃ t', t.insert r = some t' := by
  unfold insert
  exact ⟨_, dif_pos h⟩

theorem find_mem {t : Table ρ clash} {q : ρ → Bool} {r : ρ} (h : t.find q = some r) :
    r ∈ t.rows ∧ q r = true :=
  ⟨List.mem_of_find?_eq_some h, List.find?_some h⟩

theorem find_none {t : Table ρ clash} {q : ρ → Bool} (h : t.find q = none) :
    ∀ r ∈ t.rows, q r = false := by
  intro r hr
  simpa using List.find?_eq_none.mp h r hr

/-- Where a query pins down a unique column, the row it matches is the row found. -/
theorem find_of_mem {t : Table ρ clash} {q : ρ → Bool} {r : ρ} (hr : r ∈ t.rows)
    (hq : q r = true) (key : ∀ a b, q a = true → q b = true → clash a b = true) :
    t.find q = some r := by
  cases hf : t.find q with
  | none => simp [find_none hf r hr] at hq
  | some a =>
    obtain ⟨ha, hqa⟩ := find_mem hf
    by_contra hne
    have hrefl : a ≠ r := fun he => hne (by rw [he])
    obtain ⟨l, m, hs⟩ := List.append_of_mem ha
    have hd := t.distinct
    rw [hs, List.pairwise_append, List.pairwise_cons] at hd
    rw [hs] at hr
    rcases List.mem_append.mp hr with hl | hm
    · have := hd.2.2 r hl a (by simp)
      simp [key r a hq hqa] at this
    · rcases List.mem_cons.mp hm with he | hm
      · exact hrefl he.symm
      · have := hd.2.1.1 r hm
        simp [key a r hqa hq] at this

/-- At most one row matches a query that pins down a unique column. -/
theorem filter_eq_toList {t : Table ρ clash} {q : ρ → Bool}
    (k : ∀ a b, q a = true → q b = true → clash a b = true) :
    t.rows.filter q = (t.find q).toList := by
  have single : ∀ rows : List ρ, (rows.Pairwise fun a b => clash a b = false) →
      rows.filter q = (rows.find? q).toList := by
    intro rows
    induction rows with
    | nil => exact fun _ => rfl
    | cons a rows ih =>
      intro h
      rw [List.pairwise_cons] at h
      cases ha : q a with
      | false => rw [List.filter_cons_of_neg (by simp [ha]), List.find?_cons_of_neg (by simp [ha]), ih h.2]
      | true =>
        rw [List.filter_cons_of_pos ha, List.find?_cons_of_pos ha]
        have hnil : rows.filter q = [] := by
          apply List.filter_eq_nil_iff.mpr
          intro b hb hqb
          have := h.1 b hb
          rw [k a b ha hqb] at this
          cases this
        rw [hnil]
        rfl
  exact single t.rows t.distinct

theorem mem_update {t : Table ρ clash} {p : ρ → Bool} {f : ρ → ρ} {h : KeepsKeys clash f} {r : ρ} :
    r ∈ (t.update p f h).rows ↔ ∃ a ∈ t.rows, (if p a then f a else a) = r :=
  List.mem_map

/-- A query on columns the change leaves alone finds the changed row. -/
theorem find_update {t : Table ρ clash} {p q : ρ → Bool} {f : ρ → ρ} {h : KeepsKeys clash f}
    (hq : ∀ r, q (f r) = q r) :
    (t.update p f h).find q = (t.find q).map fun r => if p r then f r else r := by
  have same : ∀ r, q (if p r then f r else r) = q r := fun r => by split <;> simp [hq]
  simp only [find, update, List.find?_map, Function.comp_def, same]

theorem find_insert {t t' : Table ρ clash} {q : ρ → Bool} {r : ρ} (h : t.insert r = some t') :
    t'.find q = (t.find q).or (if q r then some r else none) := by
  unfold find
  rw [(insert_some h).1, List.find?_append]
  cases hq : q r <;> simp [hq]

/-- An `UPDATE` that matches no row changes nothing. -/
theorem update_eq_self {t : Table ρ clash} {p : ρ → Bool} {f : ρ → ρ} {h : KeepsKeys clash f}
    (hp : ∀ r ∈ t.rows, p r = false) : t.update p f h = t := by
  apply ext_rows
  unfold update
  conv_rhs => rw [← List.map_id t.rows]
  apply List.map_congr_left
  intro r hr
  simp [hp r hr]

theorem filter_update {t : Table ρ clash} {p q : ρ → Bool} {f : ρ → ρ} {h : KeepsKeys clash f}
    (hq : ∀ r, q (f r) = q r) :
    (t.update p f h).rows.filter q = (t.rows.filter q).map fun r => if p r then f r else r := by
  have same : ∀ r, q (if p r then f r else r) = q r := fun r => by split <;> simp [hq]
  simp only [update, List.filter_map, Function.comp_def, same]

/-- Rows that an `UPDATE` does not match stay as they were. -/
theorem filter_update_outside {t : Table ρ clash} {p q : ρ → Bool} {f : ρ → ρ} (h : KeepsKeys clash f)
    (hq : ∀ r, q (f r) = q r) (hp : ∀ r ∈ t.rows, p r = true → q r = false) :
    (t.update p f h).rows.filter q = t.rows.filter q := by
  rw [filter_update hq]
  conv_rhs => rw [← List.map_id (t.rows.filter q)]
  apply List.map_congr_left
  intro r hr
  obtain ⟨hmem, hqr⟩ := List.mem_filter.mp hr
  cases hpr : p r with
  | false => rfl
  | true => exact absurd ((hp r hmem hpr).symm.trans hqr) Bool.false_ne_true

theorem count_insert {t t' : Table ρ clash} {q : ρ → Bool} {r : ρ} (h : t.insert r = some t') :
    t'.count q = t.count q + if q r then 1 else 0 := by
  unfold count
  rw [(insert_some h).1, List.filter_append, List.length_append]
  cases hq : q r <;> simp [hq]

theorem filter_insert {t t' : Table ρ clash} {q : ρ → Bool} {r : ρ} (h : t.insert r = some t')
    (hq : q r = false) : t'.rows.filter q = t.rows.filter q := by
  rw [(insert_some h).1, List.filter_append, List.filter_cons_of_neg (by simp [hq]), List.filter_nil,
    List.append_nil]

end Table
end Telegraph.Lib
