import Mathlib.Data.Finset.Card
import Mathlib.Data.List.DropRight
import PaymentConnector.Library.OrderedDict

/-!
# Least recently used

A bounded map whose entries move to the back when they are used holds the keys
used last.  `order n ks h` is the list of keys, least recently used first, after
the uses `h` from the keys `ks`; the map never holds more than `n`.

## Main results

* `mem_order_iff` — a key that was used is still held exactly when fewer than
  `n` distinct keys were used since.
* `keys_moveToEnd`, `keys_evictOver_set` — the two ways to use a key of an
  ordered map: moving an entry that is there, and writing one that is not.
-/

namespace PaymentConnector.Library.Lru

universe u v

variable {κ : Type u} [DecidableEq κ]

/-- The keys after a use of `k`: it goes to the back, and what is over the bound
falls off the front. -/
def use (n : Nat) (ks : List κ) (k : κ) : List κ := (ks.filter (fun x => x ≠ k) ++ [k]).rtake n

/-- The keys after a list of uses. -/
def order (n : Nat) (ks h : List κ) : List κ := h.foldl (use n) ks

/-- The keys used since the last use of `k`. -/
def since (k : κ) (h : List κ) : List κ := h.rtakeWhile (fun x => x ≠ k)

theorem order_append (n : Nat) (ks h₁ h₂ : List κ) :
    order n ks (h₁ ++ h₂) = order n (order n ks h₁) h₂ :=
  List.foldl_append

theorem order_concat (n : Nat) (ks h : List κ) (k : κ) :
    order n ks (h ++ [k]) = use n (order n ks h) k := by
  rw [order_append]
  rfl

theorem length_use_le (n : Nat) (ks : List κ) (k : κ) : (use n ks k).length ≤ n := by
  simp only [use, List.rtake, List.length_drop]
  omega

theorem mem_of_mem_use {n : Nat} {ks : List κ} {k x : κ} (h : x ∈ use n ks k) :
    x ∈ ks ∨ x = k := by
  have hin := List.mem_of_mem_drop h
  rcases List.mem_append.mp hin with hold | hnew
  · exact Or.inl (List.mem_of_mem_filter hold)
  · exact Or.inr (List.mem_singleton.mp hnew)

theorem mem_use_self {n : Nat} (hn : 0 < n) (ks : List κ) (k : κ) : k ∈ use n ks k := by
  have hlast : use n ks k = (ks.filter (fun x => x ≠ k)).rtake (n - 1) ++ [k] := by
    obtain ⟨m, rfl⟩ : ∃ m, n = m + 1 := ⟨n - 1, by omega⟩
    exact List.rtake_concat_succ _ _ _
  rw [hlast]
  exact List.mem_append_right _ (List.mem_singleton.mpr rfl)

theorem nodup_use {ks : List κ} (h : ks.Nodup) (n : Nat) (k : κ) : (use n ks k).Nodup := by
  apply List.Nodup.sublist (List.drop_sublist _ _)
  rw [List.nodup_append]
  refine ⟨h.filter _, List.nodup_singleton k, ?_⟩
  intro x hx y hy heq
  have hne : x ≠ k := of_decide_eq_true (List.mem_filter.mp hx).2
  rw [List.mem_singleton.mp hy] at heq
  exact hne heq

/-! ## What stays -/

omit [DecidableEq κ] in
/-- What is behind a key is kept with it as long as there is room. -/
private theorem rtake_of_lt {n : Nat} {l r : List κ} {k : κ} (h : r.length < n) :
    ∃ l', (l ++ k :: r).rtake n = l' ++ k :: r ∧ l'.Sublist l := by
  refine ⟨l.drop (l.length + (r.length + 1) - n), ?_, List.drop_sublist _ _⟩
  simp only [List.rtake, List.drop_append, List.length_append, List.length_cons]
  have hzero : l.length + (r.length + 1) - n - l.length = 0 := by omega
  rw [hzero, List.drop_zero]

omit [DecidableEq κ] in
/-- Without room the key falls off. -/
private theorem mem_of_mem_rtake_of_le {n : Nat} {l r : List κ} {k x : κ} (h : n ≤ r.length)
    (hin : x ∈ (l ++ k :: r).rtake n) : x ∈ r := by
  have hsplit : l ++ k :: r = (l ++ [k]) ++ r := by simp
  have hlong : (l ++ [k]).length ≤ (l ++ [k] ++ r).length - n := by
    have hlength : (l ++ [k] ++ r).length = (l ++ [k]).length + r.length := List.length_append
    omega
  rw [hsplit, List.rtake, List.drop_append, List.drop_eq_nil_of_le hlong, List.nil_append] at hin
  exact List.mem_of_mem_drop hin

/-- The map holds no key that was neither there nor used. -/
theorem mem_of_mem_order {n : Nat} {x : κ} {h : List κ} :
    ∀ {ks : List κ}, x ∈ order n ks h → x ∈ ks ∨ x ∈ h := by
  induction h with
  | nil => exact fun hin => Or.inl hin
  | cons k h ih =>
      intro ks hin
      rcases ih hin with hused | hlater
      · rcases mem_of_mem_use hused with hold | hnew
        · exact Or.inl hold
        · rw [hnew]
          exact Or.inr List.mem_cons_self
      · exact Or.inr (List.mem_cons_of_mem k hlater)

/-- The keys behind `k` and those used next decide whether it stays. -/
private theorem mem_order_iff_from {n : Nat} {k : κ} {h : List κ} (hh : ¬ k ∈ h) :
    ∀ {l r : List κ}, (l ++ k :: r).Nodup → r.length < n →
      (k ∈ order n (l ++ k :: r) h ↔ (r.toFinset ∪ h.toFinset).card < n) := by
  induction h with
  | nil =>
      intro l r hnodup hroom
      have hr : r.Nodup := ((List.nodup_append.mp hnodup).2.1).of_cons
      rw [List.toFinset_nil, Finset.union_empty, List.toFinset_card_of_nodup hr]
      exact ⟨fun _ => hroom, fun _ => List.mem_append_right l List.mem_cons_self⟩
  | cons x h ih =>
      intro l r hnodup hroom
      rw [List.mem_cons, not_or] at hh
      have hr : r.Nodup := ((List.nodup_append.mp hnodup).2.1).of_cons
      let r' := r.filter (fun y => y ≠ x) ++ [x]
      have hset : r'.toFinset = insert x r.toFinset := by
        ext y
        simp only [r', List.toFinset_append, List.toFinset_filter, Finset.mem_union,
          Finset.mem_filter, Finset.mem_insert, List.mem_toFinset, List.mem_singleton,
          decide_eq_true_eq]
        tauto
      have hunion : r.toFinset ∪ (x :: h).toFinset = r'.toFinset ∪ h.toFinset := by
        rw [hset, List.toFinset_cons, Finset.union_insert, Finset.insert_union]
      have hr' : r'.Nodup := by
        rw [List.nodup_append]
        refine ⟨hr.filter _, List.nodup_singleton x, ?_⟩
        intro y hy z hz heq
        have hne : y ≠ x := of_decide_eq_true (List.mem_filter.mp hy).2
        rw [List.mem_singleton.mp hz] at heq
        exact hne heq
      have hused : use n (l ++ k :: r) x =
          (l.filter (fun y => y ≠ x) ++ k :: r').rtake n := by
        have hkeep : decide (k ≠ x) = true := decide_eq_true hh.1
        simp only [use, r', List.filter_append, List.filter_cons, hkeep, if_true,
          List.append_assoc, List.cons_append]
      rw [hunion]
      show k ∈ order n (use n (l ++ k :: r) x) h ↔ _
      by_cases hfits : r'.length < n
      · obtain ⟨l', hkept, -⟩ := rtake_of_lt (l := l.filter (fun y => y ≠ x)) (k := k) hfits
        have hnodup' : (l' ++ k :: r').Nodup := by
          rw [← hkept, ← hused]
          exact nodup_use hnodup n x
        rw [hused, hkept]
        exact ih hh.2 hnodup' hfits
      · have hgone : ¬ k ∈ use n (l ++ k :: r) x := by
          intro hin
          rw [hused] at hin
          have hbehind := mem_of_mem_rtake_of_le (by omega) hin
          rcases List.mem_append.mp hbehind with hold | hnew
          · have hk := (List.nodup_cons.mp (List.nodup_append.mp hnodup).2.1).1
            exact hk (List.mem_of_mem_filter hold)
          · exact hh.1 (List.mem_singleton.mp hnew)
        have hmany : n ≤ (r'.toFinset ∪ h.toFinset).card := by
          calc
            n ≤ r'.length := by omega
            _ = r'.toFinset.card := (List.toFinset_card_of_nodup hr').symm
            _ ≤ (r'.toFinset ∪ h.toFinset).card :=
              Finset.card_le_card Finset.subset_union_left
        constructor
        · intro hin
          rcases mem_of_mem_order hin with hkept | hused
          · exact absurd hkept hgone
          · exact absurd hused hh.2
        · intro hlt
          omega

/-! ## The uses since the last one -/

theorem since_concat_self (k : κ) (h : List κ) : since k (h ++ [k]) = [] :=
  List.rtakeWhile_concat_neg _ _ _ (by simp)

theorem since_concat_ne {k x : κ} (h : List κ) (hne : x ≠ k) :
    since k (h ++ [x]) = since k h ++ [x] :=
  List.rtakeWhile_concat_pos _ _ _ (decide_eq_true hne)

theorem not_mem_since (k : κ) (h : List κ) : ¬ k ∈ since k h := by
  intro hin
  have hne := List.mem_rtakeWhile_imp hin
  simp at hne

/-- The last use of a key, followed by others. -/
theorem since_append {k : κ} (h₁ : List κ) {h₂ : List κ} (hk : ¬ k ∈ h₂) :
    since k (h₁ ++ k :: h₂) = h₂ := by
  induction h₂ using List.reverseRecOn with
  | nil => exact since_concat_self k h₁
  | append_singleton h₂ x ih =>
      rw [List.mem_append, List.mem_singleton, not_or] at hk
      have hsplit : h₁ ++ k :: (h₂ ++ [x]) = (h₁ ++ k :: h₂) ++ [x] := by simp
      rw [hsplit, since_concat_ne _ (fun heq => hk.2 heq.symm), ih hk.1]

/-- A list of uses, split at the last use of a key. -/
theorem exists_eq_append_since {k : κ} {h : List κ} (hk : k ∈ h) :
    ∃ h₁, h = h₁ ++ k :: since k h := by
  induction h using List.reverseRecOn with
  | nil => cases hk
  | append_singleton h x ih =>
      by_cases hx : x = k
      · rw [hx, since_concat_self]
        exact ⟨h, rfl⟩
      · have hold : k ∈ h := by
          rcases List.mem_append.mp hk with hold | hnew
          · exact hold
          · exact absurd (List.mem_singleton.mp hnew).symm hx
        obtain ⟨h₁, heq⟩ := ih hold
        refine ⟨h₁, ?_⟩
        rw [since_concat_ne h hx]
        calc
          h ++ [x] = h₁ ++ k :: since k h ++ [x] := by rw [← heq]
          _ = h₁ ++ k :: (since k h ++ [x]) := by simp

theorem nodup_order {n : Nat} {h : List κ} : ∀ {ks : List κ}, ks.Nodup → (order n ks h).Nodup := by
  induction h with
  | nil => exact fun hks => hks
  | cons x h ih => exact fun hks => ih (nodup_use hks n x)

theorem length_order_le {n : Nat} {h : List κ} :
    ∀ {ks : List κ}, ks.length ≤ n → (order n ks h).length ≤ n := by
  induction h with
  | nil => exact fun hks => hks
  | cons x h ih => exact fun {ks} _ => ih (length_use_le n ks x)

/-- A key that was used is still held exactly when fewer than `n` distinct keys
were used since its last use. -/
theorem mem_order_iff {n : Nat} {ks h : List κ} {k : κ} (hks : ks.Nodup) (hk : k ∈ h) :
    k ∈ order n ks h ↔ (since k h).toFinset.card < n := by
  obtain ⟨h₁, heq⟩ := exists_eq_append_since hk
  have hsplit : order n ks h = order n (use n (order n ks h₁) k) (since k h) := by
    conv_lhs => rw [heq]
    rw [order_append]
    rfl
  rw [hsplit]
  by_cases hn : 0 < n
  · obtain ⟨l, hl, -⟩ :=
      rtake_of_lt (l := (order n ks h₁).filter (fun x => x ≠ k)) (r := []) (k := k) hn
    have hused : use n (order n ks h₁) k = l ++ k :: [] := hl
    have hnodup : (l ++ k :: []).Nodup := by
      rw [← hused]
      exact nodup_use (nodup_order hks) n k
    have hiff := mem_order_iff_from (not_mem_since k h) hnodup hn
    rw [hused, hiff, List.toFinset_nil, Finset.empty_union]
  · have hempty : order n (use n (order n ks h₁) k) (since k h) = [] := by
      have hlength := length_order_le (h := since k h) (length_use_le n (order n ks h₁) k)
      exact List.eq_nil_of_length_eq_zero (by omega)
    rw [hempty]
    constructor
    · exact fun hin => absurd hin List.not_mem_nil
    · exact fun hlt => by omega

/-! ## Ordered maps -/

variable {α : Type v}

/-- A key that is not there is not filtered out. -/
private theorem filter_ne_of_not_mem {ks : List κ} {k : κ} (hk : ¬ k ∈ ks) :
    ks.filter (fun x => x ≠ k) = ks := by
  rw [List.filter_eq_self]
  intro x hx
  apply decide_eq_true
  intro heq
  rw [heq] at hx
  exact hk hx

/-- A use of a key that is there. -/
theorem keys_moveToEnd {n : Nat} {d : OrderedDict κ α} {k : κ} (hk : k ∈ d)
    (hlength : d.length ≤ n) : (d.moveToEnd k).keys = use n d.keys k := by
  have hkeys := OrderedDict.keys_moveToEnd hk
  have hshort : (d.keys.filter (fun x => x ≠ k) ++ [k]).length ≤ n := by
    have hone : (d.keys.filter (fun x => x ≠ k)).length < d.keys.length := by
      rw [List.length_filter_lt_length_iff_exists]
      exact ⟨k, hk, by simp⟩
    rw [OrderedDict.length_keys] at hone
    rw [List.length_append, List.length_singleton]
    omega
  rw [hkeys, use, List.rtake, Nat.sub_eq_zero_of_le hshort, List.drop_zero]

/-- A use of a key that is not there. -/
theorem keys_evictOver_set {n : Nat} {d : OrderedDict κ α} {k : κ} (a : α) (hk : ¬ k ∈ d) :
    (OrderedDict.evictOver n (d.set k a)).keys = use n d.keys k := by
  have hkeys : (d.set k a).keys = d.keys.filter (fun x => x ≠ k) ++ [k] := by
    rw [OrderedDict.keys_set, if_neg hk, filter_ne_of_not_mem hk]
  rw [OrderedDict.keys_evictOver, ← OrderedDict.length_keys, hkeys]
  rfl

end PaymentConnector.Library.Lru
