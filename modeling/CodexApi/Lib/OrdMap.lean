import Mathlib.Order.Basic
import Mathlib.Order.Defs.LinearOrder
import Mathlib.Order.Lattice
import Mathlib.Data.List.Basic

/-!
# Ordered maps

A map kept as the list of its entries in strictly increasing key order. `OrdMap` carries that
order as a field, so two maps with the same lookups are equal (`OrdMap.ext_get`) and every law
about updates reduces to what a lookup sees after them.

The list functions of the namespace `Assoc` are the same operations without the order proof;
a type that nests its own maps has to use them.
-/

namespace CodexApi

namespace Assoc

variable {κ ν : Type*} [LinearOrder κ]

/-- The value of the first entry with key `k`. -/
def get (k : κ) : List (κ × ν) → Option ν
  | [] => none
  | (k', v) :: m => if k = k' then some v else get k m

/-- Sets key `k` to `v`: before the first larger key, or in place of the old value. -/
def insert (k : κ) (v : ν) : List (κ × ν) → List (κ × ν)
  | [] => [(k, v)]
  | (k', v') :: m =>
    if k = k' then (k, v) :: m
    else if k < k' then (k, v) :: (k', v') :: m
    else (k', v') :: insert k v m

/-- Removes key `k`. -/
def erase (k : κ) (m : List (κ × ν)) : List (κ × ν) :=
  m.filter fun e => !decide (k = e.1)

/-- The entries stand in strictly increasing key order. -/
def Ordered (m : List (κ × ν)) : Prop :=
  m.Pairwise fun a b => a.1 < b.1

variable {k k' : κ} {v : ν} {m m' : List (κ × ν)}

@[simp]
theorem get_nil : get k ([] : List (κ × ν)) = none := rfl

@[simp]
theorem get_insert_self : get k (insert k v m) = some v := by
  induction m with
  | nil => simp [insert, get]
  | cons e m ih =>
    simp only [insert]
    split_ifs with heq hlt
    · simp [get]
    · simp [get]
    · simpa [get, heq] using ih

@[simp]
theorem get_insert_of_ne (h : k' ≠ k) : get k' (insert k v m) = get k' m := by
  induction m with
  | nil => simp [insert, get, h]
  | cons e m ih =>
    simp only [insert]
    split_ifs with heq hlt
    · subst heq
      simp [get, h]
    · simp [get, h]
    · simp only [get, ih]

@[simp]
theorem get_erase_self : get k (erase k m) = none := by
  induction m with
  | nil => rfl
  | cons e m ih =>
    by_cases heq : k = e.1
    · simpa [erase, heq] using ih
    · simpa [erase, heq, get] using ih

@[simp]
theorem get_erase_of_ne (h : k' ≠ k) : get k' (erase k m) = get k' m := by
  induction m with
  | nil => rfl
  | cons e m ih =>
    by_cases heq : k = e.1
    · subst heq
      simpa [erase, get, h] using ih
    · simp only [erase, List.filter_cons, heq, decide_false, Bool.not_false, if_true, get]
      exact if_congr Iff.rfl rfl ih

/-- A key is bound exactly when an entry carries it. -/
theorem get_eq_none_iff : get k m = none ↔ ∀ e ∈ m, e.1 ≠ k := by
  induction m with
  | nil => simp
  | cons e m ih =>
    simp only [get, List.forall_mem_cons]
    by_cases heq : k = e.1
    · simp [heq]
    · simp [heq, Ne.symm heq, ih]

/-- A bound value is that of an entry. -/
theorem mem_of_get (h : get k m = some v) : (k, v) ∈ m := by
  induction m with
  | nil => simp at h
  | cons e m ih =>
    obtain ⟨key, value⟩ := e
    simp only [get] at h
    split_ifs at h with hkey
    · rw [hkey, ← Option.some.inj h]
      exact List.mem_cons_self
    · exact List.mem_cons_of_mem _ (ih h)

/-! ### Entries after an insertion -/

/-- The last insertion under a key counts. -/
@[simp]
theorem insert_insert_self {v' : ν} : insert k v' (insert k v m) = insert k v' m := by
  induction m with
  | nil => simp [insert]
  | cons e m ih =>
    simp only [insert]
    split_ifs with heq hlt
    · simp [insert]
    · simp [insert]
    · simp only [insert, if_neg heq, if_neg hlt, ih]

/-- Entries under other keys stay as they are. -/
theorem filter_insert_of_not {p : κ → Bool} (h : p k = false) :
    (insert k v m).filter (p ·.1) = m.filter (p ·.1) := by
  induction m with
  | nil => simp [insert, h]
  | cons e m ih =>
    simp only [insert]
    split_ifs with heq hlt
    · subst heq
      simp [h]
    · simp [h]
    · simp only [List.filter_cons, ih]

/-- The only entry with a key of a kind is the one inserted, where there was none before. -/
theorem filter_insert_of_none {p : κ → Bool} (h : p k = true) (hnone : ∀ e ∈ m, p e.1 = false) :
    (insert k v m).filter (p ·.1) = [(k, v)] := by
  have hm : ∀ l : List (κ × ν), (∀ e ∈ l, p e.1 = false) → l.filter (p ·.1) = [] :=
    fun l hl => List.filter_eq_nil_iff.mpr fun e he => by simp [hl e he]
  induction m with
  | nil => simp [insert, h]
  | cons e m ih =>
    have hhead := hnone e List.mem_cons_self
    have htail : ∀ e ∈ m, p e.1 = false := fun e he => hnone e (List.mem_cons_of_mem _ he)
    simp only [insert]
    split_ifs with heq hlt
    · simp [h, hm m htail]
    · simp [h, hhead, hm m htail]
    · simp [hhead, ih htail]

/-- A key that comes last is appended. -/
theorem insert_of_lt (h : ∀ e ∈ m, e.1 < k) : insert k v m = m ++ [(k, v)] := by
  induction m with
  | nil => rfl
  | cons e m ih =>
    obtain ⟨hhead, htail⟩ := List.forall_mem_cons.mp h
    rw [insert, if_neg hhead.ne', if_neg hhead.not_gt, ih htail, List.cons_append]

/-- What holds of the entries, and of the new one. -/
theorem forall_mem_insert {p : κ × ν → Prop} (hnew : p (k, v)) (h : ∀ e ∈ m, p e) :
    ∀ e ∈ insert k v m, p e := by
  induction m with
  | nil => exact List.forall_mem_singleton.mpr hnew
  | cons e m ih =>
    obtain ⟨hhead, htail⟩ := List.forall_mem_cons.mp h
    rw [insert]
    split_ifs
    · exact List.forall_mem_cons.mpr ⟨hnew, htail⟩
    · exact List.forall_mem_cons.mpr ⟨hnew, h⟩
    · exact List.forall_mem_cons.mpr ⟨hhead, ih htail⟩

/-! ### The order is kept -/

theorem ordered_nil : Ordered ([] : List (κ × ν)) :=
  List.Pairwise.nil

theorem fst_of_mem_insert {e : κ × ν} (h : e ∈ insert k v m) : e.1 = k ∨ ∃ e' ∈ m, e'.1 = e.1 := by
  induction m with
  | nil =>
    simp only [insert, List.mem_singleton] at h
    exact .inl (by rw [h])
  | cons c m ih =>
    simp only [insert] at h
    split_ifs at h with heq hlt
    · rcases List.mem_cons.mp h with rfl | h
      · exact .inl rfl
      · exact .inr ⟨e, List.mem_cons_of_mem _ h, rfl⟩
    · rcases List.mem_cons.mp h with rfl | h
      · exact .inl rfl
      · exact .inr ⟨e, h, rfl⟩
    · rcases List.mem_cons.mp h with rfl | h
      · exact .inr ⟨c, List.mem_cons_self, rfl⟩
      · refine (ih h).imp_right ?_
        rintro ⟨e', hmem, hkey⟩
        exact ⟨e', List.mem_cons_of_mem _ hmem, hkey⟩

theorem Ordered.insert (h : Ordered m) : Ordered (insert k v m) := by
  induction m with
  | nil => exact List.pairwise_singleton ..
  | cons c m ih =>
    obtain ⟨hhead, htail⟩ := List.pairwise_cons.mp h
    simp only [Assoc.insert]
    split_ifs with heq hlt
    · subst heq
      exact List.pairwise_cons.mpr ⟨hhead, htail⟩
    · refine List.pairwise_cons.mpr ⟨fun e he => ?_, h⟩
      rcases List.mem_cons.mp he with rfl | he
      · exact hlt
      · exact hlt.trans (hhead e he)
    · refine List.pairwise_cons.mpr ⟨fun e he => ?_, ih htail⟩
      rcases fst_of_mem_insert he with hk | ⟨e', hmem, hkey⟩
      · exact hk ▸ lt_of_le_of_ne (not_lt.mp hlt) (Ne.symm heq)
      · exact hkey ▸ hhead e' hmem

theorem Ordered.erase (h : Ordered m) : Ordered (erase k m) :=
  h.filter _

/-- **Extensionality.** Ordered lists with the same lookups are equal. -/
theorem Ordered.eq_of_get_eq (h : Ordered m) (h' : Ordered m')
    (hget : ∀ k, get k m = get k m') : m = m' := by
  induction m generalizing m' with
  | nil =>
    cases m' with
    | nil => rfl
    | cons e' m' => simpa [get] using hget e'.1
  | cons e m ih =>
    cases m' with
    | nil => simpa [get] using hget e.1
    | cons e' m' =>
      obtain ⟨hhead, htail⟩ := List.pairwise_cons.mp h
      obtain ⟨hhead', htail'⟩ := List.pairwise_cons.mp h'
      have hkey : e.1 = e'.1 := by
        rcases lt_trichotomy e.1 e'.1 with hlt | heq | hlt
        · have hnone : get e.1 m' = none :=
            get_eq_none_iff.mpr fun c hc => (hlt.trans (hhead' c hc)).ne'
          simpa [get, hlt.ne, hnone] using hget e.1
        · exact heq
        · have hnone : get e'.1 m = none :=
            get_eq_none_iff.mpr fun c hc => (hlt.trans (hhead c hc)).ne'
          simpa [get, hlt.ne, hnone] using hget e'.1
      have hval : e.2 = e'.2 := by simpa [get, hkey] using hget e.1
      have hrest : m = m' := by
        refine ih htail htail' fun k => ?_
        by_cases hk : k = e.1
        · subst hk
          have hnone : get e.1 m = none := get_eq_none_iff.mpr fun c hc => (hhead c hc).ne'
          have hnone' : get e.1 m' = none :=
            get_eq_none_iff.mpr fun c hc => hkey ▸ (hhead' c hc).ne'
          rw [hnone, hnone']
        · simpa [get, hk, hkey ▸ hk] using hget k
      rw [hrest, Prod.ext hkey hval]

end Assoc

/-- A map as the list of its entries in strictly increasing key order. -/
structure OrdMap (κ ν : Type*) [LinearOrder κ] where
  entries : List (κ × ν)
  ordered : Assoc.Ordered entries

namespace OrdMap

variable {κ ν : Type*} [LinearOrder κ]

/-- The map without entries. -/
def empty : OrdMap κ ν := ⟨[], Assoc.ordered_nil⟩

/-- The value of key `k`. -/
def get (m : OrdMap κ ν) (k : κ) : Option ν := Assoc.get k m.entries

/-- Sets key `k` to `v`. -/
def insert (m : OrdMap κ ν) (k : κ) (v : ν) : OrdMap κ ν :=
  ⟨Assoc.insert k v m.entries, m.ordered.insert⟩

/-- Removes key `k`. -/
def erase (m : OrdMap κ ν) (k : κ) : OrdMap κ ν :=
  ⟨Assoc.erase k m.entries, m.ordered.erase⟩

/-- Sets key `k` to `v` unless it has a value already. -/
def insertIfNew (m : OrdMap κ ν) (k : κ) (v : ν) : OrdMap κ ν :=
  if (m.get k).isSome then m else m.insert k v

/-- Whether key `k` has a value. -/
def contains (m : OrdMap κ ν) (k : κ) : Bool := (m.get k).isSome

/-- The map with the given entries, later ones replacing earlier ones with the same key. -/
def ofList (l : List (κ × ν)) : OrdMap κ ν :=
  l.foldl (fun m e => m.insert e.1 e.2) empty

instance [DecidableEq ν] : DecidableEq (OrdMap κ ν) := fun m m' =>
  decidable_of_iff (m.entries = m'.entries)
    ⟨fun h => by cases m; cases m'; simpa using h, fun h => h ▸ rfl⟩

variable {m m' : OrdMap κ ν} {k k' : κ} {v : ν}

/-- **Extensionality.** A map is determined by its lookups. -/
@[ext]
theorem ext_get (h : ∀ k, m.get k = m'.get k) : m = m' := by
  cases m with
  | mk entries ordered =>
    cases m' with
    | mk entries' ordered' =>
      have := ordered.eq_of_get_eq ordered' h
      subst this
      rfl

@[simp]
theorem get_empty : (empty : OrdMap κ ν).get k = none := rfl

@[simp]
theorem get_insert_self : (m.insert k v).get k = some v :=
  Assoc.get_insert_self

@[simp]
theorem get_insert_of_ne (h : k' ≠ k) : (m.insert k v).get k' = m.get k' :=
  Assoc.get_insert_of_ne h

@[simp]
theorem get_erase_self : (m.erase k).get k = none :=
  Assoc.get_erase_self

@[simp]
theorem get_erase_of_ne (h : k' ≠ k) : (m.erase k).get k' = m.get k' :=
  Assoc.get_erase_of_ne h

theorem get_insert : (m.insert k v).get k' = if k' = k then some v else m.get k' := by
  split_ifs with h
  · rw [h, get_insert_self]
  · exact get_insert_of_ne h

theorem get_erase : (m.erase k).get k' = if k' = k then none else m.get k' := by
  split_ifs with h
  · rw [h, get_erase_self]
  · exact get_erase_of_ne h

theorem get_insertIfNew :
    (m.insertIfNew k v).get k' = if k' = k then some ((m.get k).getD v) else m.get k' := by
  unfold insertIfNew
  by_cases hsome : (m.get k).isSome
  · obtain ⟨w, hw⟩ := Option.isSome_iff_exists.mp hsome
    rw [if_pos hsome]
    split_ifs with h
    · rw [h, hw, Option.getD_some]
    · rfl
  · rw [if_neg hsome, get_insert, Option.not_isSome_iff_eq_none.mp hsome, Option.getD_none]

/-! ### Updates that commute -/

variable {v' : ν}

@[simp]
theorem insert_insert_self : (m.insert k v).insert k v' = m.insert k v' := by
  refine ext_get fun k' => ?_
  simp only [get_insert]
  split_ifs <;> rfl

theorem insert_comm (h : k ≠ k') :
    (m.insert k v).insert k' v' = (m.insert k' v').insert k v := by
  refine ext_get fun c => ?_
  simp only [get_insert]
  split_ifs with h₁ h₂
  · exact absurd (h₂.symm.trans h₁) h
  all_goals rfl

/-- Setting a key to the value it has changes nothing. -/
theorem insert_eq_self (h : m.get k = some v) : m.insert k v = m := by
  refine ext_get fun c => ?_
  rw [get_insert]
  split_ifs with hc
  · rw [hc, h]
  · rfl

@[simp]
theorem erase_insert_self : (m.insert k v).erase k = m.erase k := by
  refine ext_get fun c => ?_
  simp only [get_erase, get_insert]
  split_ifs <;> rfl

theorem erase_insert_comm (h : k ≠ k') : (m.insert k v).erase k' = (m.erase k').insert k v := by
  refine ext_get fun c => ?_
  simp only [get_erase, get_insert]
  split_ifs with h₁ h₂
  · exact absurd (h₂.symm.trans h₁) h
  all_goals rfl

/-- Removing a key that has no value changes nothing. -/
theorem erase_eq_self (h : m.get k = none) : m.erase k = m := by
  refine ext_get fun c => ?_
  rw [get_erase]
  split_ifs with hc
  · rw [hc, h]
  · rfl

theorem insertIfNew_insert_comm (h : k ≠ k') :
    (m.insert k v).insertIfNew k' v' = (m.insertIfNew k' v').insert k v := by
  unfold insertIfNew
  rw [get_insert_of_ne h.symm]
  split_ifs
  · rfl
  · exact insert_comm h

/-- Two maps that agree outside of a key agree after setting it. -/
theorem insert_congr (h : m.erase k = m'.erase k) : m.insert k v = m'.insert k v := by
  refine ext_get fun c => ?_
  have hc := congrArg (·.get c) h
  simp only [get_erase] at hc
  simp only [get_insert]
  split_ifs at hc ⊢ with heq
  · rfl
  · exact hc

/-- Setting entries with distinct keys binds exactly them. -/
private theorem get_foldl_insert {l : List (κ × ν)} (h : Assoc.Ordered l) (m : OrdMap κ ν) (k : κ) :
    (l.foldl (fun m e => m.insert e.1 e.2) m).get k = (Assoc.get k l).or (m.get k) := by
  induction l generalizing m with
  | nil => rfl
  | cons e l ih =>
    obtain ⟨hhead, htail⟩ := List.pairwise_cons.mp h
    rw [List.foldl_cons, ih htail, get_insert, Assoc.get]
    by_cases hk : k = e.1
    · have hnone : Assoc.get k l = none :=
        Assoc.get_eq_none_iff.mpr fun c hc => hk ▸ (hhead c hc).ne'
      rw [if_pos hk, if_pos hk, hnone]
      rfl
    · rw [if_neg hk, if_neg hk]

/-- What holds of the entries of a list holds of those of the map. -/
theorem forall_mem_ofList {l : List (κ × ν)} {p : κ × ν → Prop} (h : ∀ e ∈ l, p e) :
    ∀ e ∈ (ofList l).entries, p e := by
  have hfold : ∀ m : OrdMap κ ν, (∀ e ∈ m.entries, p e) →
      ∀ e ∈ (l.foldl (fun m e => m.insert e.1 e.2) m).entries, p e := by
    induction l with
    | nil => exact fun m hm => hm
    | cons e l ih =>
      obtain ⟨hhead, htail⟩ := List.forall_mem_cons.mp h
      exact fun m hm => ih htail _ (Assoc.forall_mem_insert hhead hm)
  exact hfold .empty fun e he => absurd he List.not_mem_nil

/-- A map is made of its entries. -/
theorem ofList_entries (m : OrdMap κ ν) : ofList m.entries = m := by
  ext k
  rw [ofList, get_foldl_insert m.ordered, get_empty, Option.or_none]
  rfl

end OrdMap

end CodexApi
