import Mathlib.Data.List.Basic
import Mathlib.Data.List.Forall2

/-!
# Lists

A table is a list addressed by position. After an append, a `set` or a `modify`, a lookup either
hits the updated entry or an old one. Where no key occurs twice, filtering by a key finds one entry; where nothing occurs twice, two
items come in one order only. In two lists related item by item, every item has one it is related
to.
-/

namespace CodexApi

variable {α : Type*} {l : List α} {x y : α} {i k : Nat}

theorem getElem?_append_singleton_cases (h : (l ++ [x])[i]? = some y) :
    l[i]? = some y ∨ i = l.length ∧ y = x := by
  rcases Nat.lt_or_ge i l.length with hlt | hge
  · rw [List.getElem?_append_left hlt] at h
    exact .inl h
  · rw [List.getElem?_append_right hge, List.getElem?_singleton] at h
    split_ifs at h with hzero
    exact .inr ⟨Nat.le_antisymm (Nat.sub_eq_zero_iff_le.mp hzero) hge, (Option.some.inj h).symm⟩

/-- An entry of the shorter table is an entry of the longer one. -/
theorem getElem?_append_of_some (bs : List α) (h : l[i]? = some y) : (l ++ bs)[i]? = some y := by
  rw [List.getElem?_append_left (List.getElem?_eq_some_iff.mp h).1, h]

theorem getElem?_set_cases (h : (l.set k x)[i]? = some y) :
    (i = k ∧ y = x) ∨ (i ≠ k ∧ l[i]? = some y) := by
  rcases eq_or_ne k i with rfl | hne
  · rw [List.getElem?_set_self' ] at h
    cases hk : l[k]? with
    | none => simp [hk] at h
    | some old =>
      rw [hk] at h
      exact .inl ⟨rfl, (Option.some.inj h).symm⟩
  · rw [List.getElem?_set_ne hne] at h
    exact .inr ⟨hne.symm, h⟩

theorem getElem?_modify_cases {f : α → α} (h : (l.modify k f)[i]? = some y) :
    (i = k ∧ ∃ old, l[i]? = some old ∧ y = f old) ∨ (i ≠ k ∧ l[i]? = some y) := by
  rw [List.getElem?_modify] at h
  rcases eq_or_ne k i with rfl | hne
  · simp only [if_true] at h
    obtain ⟨old, hold, rfl⟩ := Option.map_eq_some_iff.mp h
    exact .inl ⟨rfl, old, hold, rfl⟩
  · exact .inr ⟨hne.symm, by simpa [hne] using h⟩

/-- The last item of a list is the item in question, or comes after it. -/
theorem append_singleton_eq_append_cons {before after : List α} (h : l ++ [x] = before ++ y :: after) :
    (before = l ∧ y = x ∧ after = []) ∨ ∃ after', after = after' ++ [x] ∧ l = before ++ y :: after' := by
  rcases List.eq_nil_or_concat after with rfl | ⟨after', z, rfl⟩
  · obtain ⟨rfl, heq⟩ := List.append_inj' h rfl
    exact .inl ⟨rfl, (List.singleton_injective heq).symm, rfl⟩
  · rw [List.concat_eq_append, ← List.cons_append, ← List.append_assoc] at h
    obtain ⟨heq, hlast⟩ := List.append_inj' h rfl
    exact .inr ⟨after', by rw [List.singleton_injective hlast, List.concat_eq_append], heq⟩

/-- Where no key occurs twice, the entry of a key is the only one. -/
theorem filter_eq_singleton {β : Type*} [DecidableEq β] {f : α → β} (h : (l.map f).Nodup)
    (hx : x ∈ l) : l.filter (fun y => f y = f x) = [x] := by
  induction l with
  | nil => cases hx
  | cons a l ih =>
    obtain ⟨hnew, hnodup⟩ := List.nodup_cons.mp h
    rcases List.mem_cons.mp hx with rfl | hx
    · have hrest : l.filter (fun y => f y = f x) = [] := by
        refine List.filter_eq_nil_iff.mpr fun y hy heq => hnew ?_
        exact of_decide_eq_true heq ▸ List.mem_map_of_mem hy
      rw [List.filter_cons_of_pos (by simp), hrest]
    · have hne : f a ≠ f x := fun heq => hnew (heq ▸ List.mem_map_of_mem hx)
      rw [List.filter_cons_of_neg (by simpa using hne), ih hnodup hx]

/-- Where nothing occurs twice, two items come in one order only. -/
theorem not_sublist_swap (h : l.Nodup) (hxy : [x, y].Sublist l) : ¬ [y, x].Sublist l := by
  intro hyx
  induction l with
  | nil => cases hxy
  | cons a l ih =>
    obtain ⟨hnew, hnodup⟩ := List.nodup_cons.mp h
    cases hxy with
    | cons _ hxy =>
      cases hyx with
      | cons _ hyx => exact ih hnodup hxy hyx
      | cons_cons _ hx => exact hnew (hxy.subset (List.mem_cons_of_mem _ List.mem_cons_self))
    | cons_cons _ hy =>
      cases hyx with
      | cons _ hyx => exact hnew (hyx.subset (List.mem_cons_of_mem _ List.mem_cons_self))
      | cons_cons _ hx => exact hnew (hy.subset List.mem_cons_self)

/-! ### Lists related item by item -/

section

variable {β : Type*} {R : α → β → Prop} {as : List α} {bs : List β}

/-- Every item of the left list is related to one of the right list. -/
theorem exists_mem_right_of_forall₂ (h : List.Forall₂ R as bs) {a : α} (ha : a ∈ as) :
    ∃ b ∈ bs, R a b := by
  induction h with
  | nil => simp at ha
  | @cons a' b' as bs hab _ ih =>
    rcases List.mem_cons.mp ha with rfl | ha
    · exact ⟨b', List.mem_cons_self, hab⟩
    · obtain ⟨b, hb, hab⟩ := ih ha
      exact ⟨b, List.mem_cons_of_mem _ hb, hab⟩

/-- Every item of the right list is related to one of the left list. -/
theorem exists_mem_left_of_forall₂ (h : List.Forall₂ R as bs) {b : β} (hb : b ∈ bs) :
    ∃ a ∈ as, R a b :=
  exists_mem_right_of_forall₂ h.flip hb

end

end CodexApi
