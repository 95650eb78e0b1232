import Mathlib.Data.List.Nodup
import Mathlib.Data.List.Perm.Subperm

/-!
# Insertion-ordered maps with front eviction

An `OrderedDict` is a finite map that remembers the order in which its keys
were first inserted.  Writing a key that is present replaces its value *in
place*; writing a fresh key appends it at the back.  A bounded cache is such
a map together with the loop that pops the front while the map is over its
bound.

The structure carries the distinctness of its keys, so every lemma below is
free of side conditions about duplicates.

## Main results

* `get?_set_self`, `get?_set_ne` — `set` is a functional update.
* `get?_moveToEnd` — moving a key to the back changes no value.
* `get?_evictOver` — eviction forgets exactly the keys it popped.
* `overflow_set` — writing into a map within its bound pops at most one key,
  and then it is the front one.
* `last?_evictOver`, `last?_set_of_not_mem` — the back of the map survives.
* `get?_map`, `set_map`, `evictOver_map` — mapping the values commutes with the
  operations.
-/

namespace PaymentConnector.Library

universe u v

/-- A finite map with a remembered insertion order: front first. -/
@[ext]
structure OrderedDict (κ : Type u) (α : Type v) where
  entries : List (κ × α)
  nodup : (entries.map Prod.fst).Nodup

namespace OrderedDict

variable {κ : Type u} {α : Type v}

/-! ## Reading -/

/-- The map without entries. -/
def empty : OrderedDict κ α := ⟨[], List.nodup_nil⟩

/-- The keys, front first. -/
def keys (d : OrderedDict κ α) : List κ := d.entries.map Prod.fst

/-- The values, front first. -/
def values (d : OrderedDict κ α) : List α := d.entries.map Prod.snd

/-- The number of entries. -/
def length (d : OrderedDict κ α) : Nat := d.entries.length

instance : Membership κ (OrderedDict κ α) := ⟨fun d k => k ∈ d.keys⟩

theorem mem_def (d : OrderedDict κ α) (k : κ) : k ∈ d ↔ k ∈ d.keys := Iff.rfl

@[simp] theorem length_keys (d : OrderedDict κ α) : d.keys.length = d.length := by
  simp [keys, length]

@[simp] theorem length_empty : (empty : OrderedDict κ α).length = 0 := rfl

@[simp] theorem not_mem_empty (k : κ) : ¬ k ∈ (empty : OrderedDict κ α) := by
  simp [mem_def, keys, empty]

/-- The oldest entry. -/
def front? (d : OrderedDict κ α) : Option (κ × α) := d.entries.head?

/-- The youngest entry. -/
def last? (d : OrderedDict κ α) : Option (κ × α) := d.entries.getLast?

variable [DecidableEq κ]

instance (d : OrderedDict κ α) (k : κ) : Decidable (k ∈ d) :=
  inferInstanceAs (Decidable (k ∈ d.keys))

/-- The value of the entry of `k`, if there is one. -/
def getEntries (k : κ) : List (κ × α) → Option α
  | [] => none
  | e :: es => if e.1 = k then some e.2 else getEntries k es

/-- The value stored under `k`, if any. -/
def get? (d : OrderedDict κ α) (k : κ) : Option α := getEntries k d.entries

@[simp] theorem get?_empty (k : κ) : (empty : OrderedDict κ α).get? k = none := rfl

private theorem getEntries_eq_none_iff (k : κ) (es : List (κ × α)) :
    getEntries k es = none ↔ ¬ k ∈ es.map Prod.fst := by
  induction es with
  | nil => simp [getEntries]
  | cons e es ih =>
      by_cases he : e.1 = k
      · simp [getEntries, he]
      · have hk : ¬ k = e.1 := fun h => he h.symm
        simp only [getEntries, if_neg he, ih, List.map_cons, List.mem_cons, hk, false_or]

theorem get?_eq_none_iff (d : OrderedDict κ α) (k : κ) :
    d.get? k = none ↔ ¬ k ∈ d :=
  getEntries_eq_none_iff k d.entries

theorem mem_of_get?_eq_some {d : OrderedDict κ α} {k : κ} {a : α}
    (h : d.get? k = some a) : k ∈ d := by
  by_contra hk
  rw [(get?_eq_none_iff d k).mpr hk] at h
  cases h

theorem exists_get?_of_mem {d : OrderedDict κ α} {k : κ} (h : k ∈ d) :
    ∃ a, d.get? k = some a := by
  cases hg : d.get? k with
  | none => exact absurd h ((get?_eq_none_iff d k).mp hg)
  | some a => exact ⟨a, rfl⟩

private theorem getEntries_of_mem {es : List (κ × α)} {k : κ} {a : α}
    (hnd : (es.map Prod.fst).Nodup) (h : (k, a) ∈ es) : getEntries k es = some a := by
  induction es with
  | nil => cases h
  | cons e es ih =>
      simp only [List.map_cons, List.nodup_cons] at hnd
      rcases List.mem_cons.mp h with rfl | hmem
      · simp [getEntries]
      · have hne : ¬ e.1 = k := by
          rintro rfl
          exact hnd.1 (List.mem_map.mpr ⟨(e.1, a), hmem, rfl⟩)
        rw [getEntries, if_neg hne]
        exact ih hnd.2 hmem

private theorem mem_of_getEntries {es : List (κ × α)} {k : κ} {a : α}
    (h : getEntries k es = some a) : (k, a) ∈ es := by
  induction es with
  | nil => cases h
  | cons e es ih =>
      by_cases he : e.1 = k
      · simp only [getEntries, if_pos he, Option.some.injEq] at h
        exact List.mem_cons.mpr (Or.inl (by rw [← he, ← h]))
      · rw [getEntries, if_neg he] at h
        exact List.mem_cons_of_mem e (ih h)

/-- An entry of the map is what its key reads. -/
theorem get?_of_mem_entries {d : OrderedDict κ α} {k : κ} {a : α}
    (h : (k, a) ∈ d.entries) : d.get? k = some a :=
  getEntries_of_mem d.nodup h

/-- What a key reads is an entry of the map. -/
theorem mem_entries_of_get? {d : OrderedDict κ α} {k : κ} {a : α}
    (h : d.get? k = some a) : (k, a) ∈ d.entries :=
  mem_of_getEntries h

/-- The values are what the keys read. -/
theorem mem_values_iff_get? {d : OrderedDict κ α} {a : α} :
    a ∈ d.values ↔ ∃ k, d.get? k = some a := by
  rw [values, List.mem_map]
  constructor
  · intro h
    obtain ⟨e, he, rfl⟩ := h
    exact ⟨e.1, get?_of_mem_entries he⟩
  · intro h
    obtain ⟨k, hk⟩ := h
    exact ⟨(k, a), mem_entries_of_get? hk, rfl⟩

theorem get?_last? {d : OrderedDict κ α} {e : κ × α} (h : d.last? = some e) :
    d.get? e.1 = some e.2 :=
  get?_of_mem_entries (List.mem_of_getLast? h)

/-! ## Writing -/

/-- Replace the value of `k` where `k` stands, or append `k` at the back. -/
def setEntries (k : κ) (a : α) : List (κ × α) → List (κ × α)
  | [] => [(k, a)]
  | e :: es => if e.1 = k then (k, a) :: es else e :: setEntries k a es

private theorem keys_setEntries (k : κ) (a : α) (es : List (κ × α)) :
    (setEntries k a es).map Prod.fst =
      if k ∈ es.map Prod.fst then es.map Prod.fst else es.map Prod.fst ++ [k] := by
  induction es with
  | nil => simp [setEntries]
  | cons e es ih =>
      by_cases he : e.1 = k
      · simp [setEntries, he]
      · have hk : k ≠ e.1 := fun h => he h.symm
        simp only [setEntries, if_neg he, List.map_cons, ih, List.mem_cons, hk, false_or]
        split <;> simp

private theorem setEntries_of_not_mem {k : κ} (a : α) {es : List (κ × α)}
    (h : ¬ k ∈ es.map Prod.fst) : setEntries k a es = es ++ [(k, a)] := by
  induction es with
  | nil => rfl
  | cons e es ih =>
      simp only [List.map_cons, List.mem_cons, not_or] at h
      have he : ¬ e.1 = k := fun h' => h.1 h'.symm
      rw [setEntries, if_neg he, ih h.2, List.cons_append]

private theorem map_replace_of_not_mem {k : κ} (a : α) {es : List (κ × α)}
    (h : ¬ k ∈ es.map Prod.fst) :
    es.map (fun e => if e.1 = k then (k, a) else e) = es := by
  have hid : ∀ e ∈ es, (if e.1 = k then (k, a) else e) = e := by
    intro e he
    apply if_neg
    intro hk
    exact h (List.mem_map.mpr ⟨e, he, hk⟩)
  rw [List.map_congr_left hid, List.map_id']

private theorem setEntries_of_mem {k : κ} (a : α) {es : List (κ × α)}
    (hnd : (es.map Prod.fst).Nodup) (h : k ∈ es.map Prod.fst) :
    setEntries k a es = es.map (fun e => if e.1 = k then (k, a) else e) := by
  induction es with
  | nil => cases h
  | cons e es ih =>
      rw [List.map_cons, List.nodup_cons] at hnd
      by_cases he : e.1 = k
      · have hrest : ¬ k ∈ es.map Prod.fst := by
          rw [← he]
          exact hnd.1
        rw [setEntries, if_pos he, List.map_cons, if_pos he, map_replace_of_not_mem a hrest]
      · have hin : k ∈ es.map Prod.fst := by
          rw [List.map_cons, List.mem_cons] at h
          exact h.resolve_left (fun h' => he h'.symm)
        rw [setEntries, if_neg he, List.map_cons, if_neg he, ih hnd.2 hin]

private theorem getEntries_setEntries_self (k : κ) (a : α) (es : List (κ × α)) :
    getEntries k (setEntries k a es) = some a := by
  induction es with
  | nil => simp [setEntries, getEntries]
  | cons e es ih =>
      by_cases he : e.1 = k
      · simp [setEntries, getEntries, he]
      · simp only [setEntries, if_neg he, getEntries, ih]

private theorem getEntries_setEntries_ne {k k' : κ} (h : k' ≠ k) (a : α)
    (es : List (κ × α)) : getEntries k' (setEntries k a es) = getEntries k' es := by
  have hk : ¬ k = k' := fun h' => h h'.symm
  induction es with
  | nil => simp [setEntries, getEntries, hk]
  | cons e es ih =>
      by_cases he : e.1 = k
      · simp only [setEntries, he, if_true, getEntries, if_neg hk]
      · simp only [setEntries, if_neg he, getEntries, ih]

/-- `d[k] = a`: an existing key keeps its place, a fresh one goes to the back. -/
def set (d : OrderedDict κ α) (k : κ) (a : α) : OrderedDict κ α where
  entries := setEntries k a d.entries
  nodup := by
    rw [keys_setEntries]
    split
    · exact d.nodup
    · rename_i h
      rw [← List.concat_eq_append]
      exact d.nodup.concat h

theorem keys_set (d : OrderedDict κ α) (k : κ) (a : α) :
    (d.set k a).keys = if k ∈ d then d.keys else d.keys ++ [k] :=
  keys_setEntries k a d.entries

theorem entries_set_of_not_mem {d : OrderedDict κ α} {k : κ} (a : α)
    (h : ¬ k ∈ d) : (d.set k a).entries = d.entries ++ [(k, a)] :=
  setEntries_of_not_mem a h

@[simp] theorem get?_set_self (d : OrderedDict κ α) (k : κ) (a : α) :
    (d.set k a).get? k = some a :=
  getEntries_setEntries_self k a d.entries

@[simp] theorem get?_set_ne (d : OrderedDict κ α) {k k' : κ} (h : k' ≠ k) (a : α) :
    (d.set k a).get? k' = d.get? k' :=
  getEntries_setEntries_ne h a d.entries

theorem mem_set (d : OrderedDict κ α) (k k' : κ) (a : α) :
    k' ∈ d.set k a ↔ k' = k ∨ k' ∈ d := by
  rw [mem_def, keys_set]
  split
  · rename_i h
    exact ⟨Or.inr, fun h' => h'.elim (fun e => e ▸ h) id⟩
  · simp only [List.mem_append, List.mem_singleton, ← mem_def]
    exact or_comm

theorem length_set (d : OrderedDict κ α) (k : κ) (a : α) :
    (d.set k a).length = if k ∈ d then d.length else d.length + 1 := by
  rw [← length_keys, keys_set]
  split <;> simp

/-- A write adds one value at most. -/
theorem mem_values_set {d : OrderedDict κ α} {k : κ} {a b : α} (h : b ∈ (d.set k a).values) :
    b = a ∨ b ∈ d.values := by
  obtain ⟨k', hk'⟩ := mem_values_iff_get?.mp h
  by_cases hkey : k' = k
  · rw [hkey, get?_set_self, Option.some.injEq] at hk'
    exact Or.inl hk'.symm
  · rw [get?_set_ne d hkey] at hk'
    exact Or.inr (mem_values_iff_get?.mpr ⟨k', hk'⟩)

theorem last?_set_of_not_mem {d : OrderedDict κ α} {k : κ} (a : α)
    (h : ¬ k ∈ d) : (d.set k a).last? = some (k, a) := by
  simp [last?, entries_set_of_not_mem a h]

/-- Overwriting a key leaves it where it is. -/
theorem last?_set_of_mem {d : OrderedDict κ α} {k : κ} (a : α) (h : k ∈ d) :
    (d.set k a).last? = d.last?.map (fun e => if e.1 = k then (k, a) else e) := by
  have hset : (d.set k a).entries = d.entries.map (fun e => if e.1 = k then (k, a) else e) :=
    setEntries_of_mem a d.nodup h
  rw [last?, hset, List.getLast?_map, last?]

/-! ## Moving a key to the back -/

private theorem getEntries_append (k : κ) (es fs : List (κ × α)) :
    getEntries k (es ++ fs) = (getEntries k es).or (getEntries k fs) := by
  induction es with
  | nil => rfl
  | cons e es ih =>
      by_cases he : e.1 = k
      · simp [getEntries, he]
      · simp only [List.cons_append, getEntries, if_neg he, ih]

private theorem getEntries_filter_ne {k k' : κ} (h : k' ≠ k) (es : List (κ × α)) :
    getEntries k' (es.filter (fun e => decide (e.1 ≠ k))) = getEntries k' es := by
  induction es with
  | nil => rfl
  | cons e es ih =>
      by_cases he : e.1 = k
      · have hne : ¬ e.1 = k' := fun h' => h (h'.symm.trans he)
        rw [List.filter_cons_of_neg (by simp [he]), ih, getEntries, if_neg hne]
      · rw [List.filter_cons_of_pos (by simp [he]), getEntries, getEntries, ih]

private theorem getEntries_filter_self (k : κ) (es : List (κ × α)) :
    getEntries k (es.filter (fun e => decide (e.1 ≠ k))) = none := by
  rw [getEntries_eq_none_iff]
  intro h
  obtain ⟨e, he, hek⟩ := List.mem_map.mp h
  have hne := (List.mem_filter.mp he).2
  exact of_decide_eq_true hne hek

/-- Move `k`, where present, to the back. -/
def moveToEnd (d : OrderedDict κ α) (k : κ) : OrderedDict κ α :=
  match h : d.get? k with
  | none => d
  | some a =>
    { entries := d.entries.filter (fun e => decide (e.1 ≠ k)) ++ [(k, a)]
      nodup := by
        rw [List.map_append, List.map_cons, List.map_nil, ← List.concat_eq_append]
        refine List.Nodup.concat ?_ ?_
        · simp
        · exact d.nodup.sublist (List.Sublist.map Prod.fst List.filter_sublist) }

@[simp] theorem get?_moveToEnd (d : OrderedDict κ α) (k k' : κ) :
    (d.moveToEnd k).get? k' = d.get? k' := by
  unfold moveToEnd
  split
  · rfl
  · rename_i a hget
    by_cases hk : k' = k
    · subst hk
      simp only [get?, getEntries_append, getEntries_filter_self, getEntries, if_true,
        Option.none_or]
      exact hget.symm
    · have hne : ¬ k = k' := fun h => hk h.symm
      simp only [get?, getEntries_append, getEntries_filter_ne hk, getEntries, if_neg hne,
        Option.or_none]

theorem mem_moveToEnd (d : OrderedDict κ α) (k k' : κ) :
    k' ∈ d.moveToEnd k ↔ k' ∈ d := by
  rw [← not_iff_not, ← get?_eq_none_iff, ← get?_eq_none_iff, get?_moveToEnd]

theorem keys_moveToEnd {d : OrderedDict κ α} {k : κ} (hk : k ∈ d) :
    (d.moveToEnd k).keys = d.keys.filter (fun x => x ≠ k) ++ [k] := by
  obtain ⟨a, ha⟩ := exists_get?_of_mem hk
  unfold moveToEnd
  split
  · rename_i hnone
    rw [ha] at hnone
    cases hnone
  · simp only [keys, List.map_append, List.map_cons, List.map_nil, List.filter_map,
      Function.comp_def]

theorem length_moveToEnd (d : OrderedDict κ α) (k : κ) : (d.moveToEnd k).length = d.length := by
  have hperm : (d.moveToEnd k).keys.Perm d.keys :=
    (List.perm_ext_iff_of_nodup (d.moveToEnd k).nodup d.nodup).mpr (mem_moveToEnd d k)
  have hkeys : (d.moveToEnd k).keys.length = d.keys.length := hperm.length_eq
  rw [keys, keys, List.length_map, List.length_map] at hkeys
  exact hkeys

/-! ## Evicting from the front -/

/-- `while len(d) > n: d.popitem(last=False)`. -/
def evictEntries (n : Nat) : List (κ × α) → List (κ × α)
  | [] => []
  | e :: es => if n < (e :: es).length then evictEntries n es else e :: es

omit [DecidableEq κ] in
private theorem evictEntries_eq_drop (n : Nat) (es : List (κ × α)) :
    evictEntries n es = es.drop (es.length - n) := by
  induction es with
  | nil => simp [evictEntries]
  | cons e es ih =>
      by_cases h : n < (e :: es).length
      · have hlen : (e :: es).length - n = (es.length - n) + 1 := by
          simp only [List.length_cons] at h ⊢
          omega
        rw [evictEntries, if_pos h, ih, hlen, List.drop_succ_cons]
      · have hlen : (e :: es).length - n = 0 := by omega
        rw [evictEntries, if_neg h, hlen, List.drop_zero]

/-- Pop the front while more than `n` entries remain. -/
def evictOver (n : Nat) (d : OrderedDict κ α) : OrderedDict κ α where
  entries := evictEntries n d.entries
  nodup := by
    rw [evictEntries_eq_drop]
    exact d.nodup.sublist (List.Sublist.map Prod.fst (List.drop_sublist _ _))

/-- The keys that `evictOver` pops, in the order in which it pops them. -/
def overflow (n : Nat) (d : OrderedDict κ α) : List κ := d.keys.take (d.length - n)

omit [DecidableEq κ] in
/-- The keys split into the popped ones and the remaining ones. -/
theorem overflow_append_keys (n : Nat) (d : OrderedDict κ α) :
    overflow n d ++ (evictOver n d).keys = d.keys := by
  simp only [overflow, keys, evictOver, evictEntries_eq_drop, length, List.map_drop]
  exact List.take_append_drop _ _

omit [DecidableEq κ] in
theorem keys_evictOver (n : Nat) (d : OrderedDict κ α) :
    (evictOver n d).keys = d.keys.drop (d.length - n) := by
  simp only [keys, evictOver, evictEntries_eq_drop, length, List.map_drop]

omit [DecidableEq κ] in
theorem length_evictOver (n : Nat) (d : OrderedDict κ α) :
    (evictOver n d).length = min d.length n := by
  simp only [length, evictOver, evictEntries_eq_drop, List.length_drop]
  omega

omit [DecidableEq κ] in
theorem mem_evictOver (n : Nat) (d : OrderedDict κ α) (k : κ) :
    k ∈ evictOver n d ↔ k ∈ d ∧ ¬ k ∈ overflow n d := by
  have hnd : (overflow n d ++ (evictOver n d).keys).Nodup := by
    rw [overflow_append_keys]
    exact d.nodup
  have hdisj := List.disjoint_of_nodup_append hnd
  rw [mem_def, mem_def, ← overflow_append_keys n d, List.mem_append]
  constructor
  · exact fun h => ⟨Or.inr h, fun ho => hdisj ho h⟩
  · exact fun h => h.1.resolve_left h.2

/-- Eviction forgets exactly the popped keys. -/
theorem get?_evictOver (n : Nat) (d : OrderedDict κ α) (k : κ) :
    (evictOver n d).get? k = if k ∈ overflow n d then none else d.get? k := by
  split
  · rename_i h
    rw [get?_eq_none_iff, mem_evictOver]
    exact fun h' => h'.2 h
  · rename_i h
    cases hg : d.get? k with
    | none =>
        rw [get?_eq_none_iff, mem_evictOver]
        exact fun h' => (get?_eq_none_iff d k).mp hg h'.1
    | some a =>
        have hk : k ∈ evictOver n d :=
          (mem_evictOver n d k).mpr ⟨mem_of_get?_eq_some hg, h⟩
        obtain ⟨b, hb⟩ := exists_get?_of_mem hk
        have hmem : (k, b) ∈ d.entries := by
          have := mem_entries_of_get? hb
          simp only [evictOver, evictEntries_eq_drop] at this
          exact List.mem_of_mem_drop this
        rw [hb, ← hg, get?_of_mem_entries hmem]

theorem mem_values_evictOver {n : Nat} {d : OrderedDict κ α} {a : α}
    (h : a ∈ (evictOver n d).values) : a ∈ d.values := by
  obtain ⟨k, hk⟩ := mem_values_iff_get?.mp h
  rw [get?_evictOver] at hk
  split at hk
  · cases hk
  · exact mem_values_iff_get?.mpr ⟨k, hk⟩

omit [DecidableEq κ] in
theorem overflow_eq_nil {n : Nat} {d : OrderedDict κ α} (h : d.length ≤ n) :
    overflow n d = [] := by
  simp [overflow, Nat.sub_eq_zero_of_le h]

omit [DecidableEq κ] in
/-- A map has at most as many entries as there are keys to choose from. -/
theorem length_le_of_keys {d : OrderedDict κ α} {ks : List κ} (h : ∀ k ∈ d, k ∈ ks) :
    d.length ≤ ks.length := by
  have hsub : List.Subperm d.keys ks := List.Nodup.subperm d.nodup (fun k hk => h k hk)
  rw [← length_keys]
  exact List.Subperm.length_le hsub

omit [DecidableEq κ] in
/-- The back of a map survives eviction to a positive bound. -/
theorem last?_evictOver {n : Nat} (hn : 0 < n) (d : OrderedDict κ α) :
    (evictOver n d).last? = d.last? := by
  simp only [last?, evictOver, evictEntries_eq_drop]
  rw [List.getLast?_drop]
  split
  · rename_i h
    have hnil : d.entries = [] := by
      rw [← List.length_eq_zero_iff]
      omega
    simp [hnil]
  · rfl

/-- Writing into a map within its bound pops nothing unless the map is full
and the key is fresh; then it pops the front key alone. -/
theorem overflow_set {n : Nat} {d : OrderedDict κ α} (hlen : d.length ≤ n)
    (k : κ) (a : α) :
    overflow n (d.set k a) =
      if ¬ k ∈ d ∧ d.length = n then (d.keys ++ [k]).take 1 else [] := by
  by_cases hk : k ∈ d
  · rw [if_neg (fun h => h.1 hk)]
    exact overflow_eq_nil (by rw [length_set, if_pos hk]; exact hlen)
  · by_cases hfull : d.length = n
    · rw [if_pos ⟨hk, hfull⟩, overflow, keys_set, if_neg hk, length_set, if_neg hk, hfull]
      congr 1
      omega
    · rw [if_neg (fun h => hfull h.2)]
      apply overflow_eq_nil
      rw [length_set, if_neg hk]
      omega

/-- The key just written survives eviction to a positive bound. -/
theorem not_mem_overflow_set_self {n : Nat} (hn : 0 < n) {d : OrderedDict κ α}
    (hlen : d.length ≤ n) (k : κ) (a : α) : ¬ k ∈ overflow n (d.set k a) := by
  rw [overflow_set hlen]
  split
  · rename_i h
    obtain ⟨e, es, hes⟩ : ∃ e es, d.keys = e :: es := by
      cases hks : d.keys with
      | nil =>
          have := d.length_keys
          rw [hks] at this
          simp only [List.length_nil] at this
          omega
      | cons e es => exact ⟨e, es, rfl⟩
    have hne : k ≠ e := by
      rintro rfl
      exact h.1 (by simp [mem_def, hes])
    simpa [hes] using hne
  · simp

/-! ## Mapping the values -/

section Map

universe w

variable {β : Type w} (f : α → β)

omit [DecidableEq κ] in
private theorem keys_mapEntries (es : List (κ × α)) :
    (es.map (fun e => (e.1, f e.2))).map Prod.fst = es.map Prod.fst := by
  rw [List.map_map]
  rfl

/-- Apply a function to every value. -/
def map (d : OrderedDict κ α) : OrderedDict κ β where
  entries := d.entries.map (fun e => (e.1, f e.2))
  nodup := by
    rw [keys_mapEntries]
    exact d.nodup

omit [DecidableEq κ] in
@[simp] theorem keys_map (d : OrderedDict κ α) : (d.map f).keys = d.keys :=
  keys_mapEntries f d.entries

omit [DecidableEq κ] in
@[simp] theorem values_map (d : OrderedDict κ α) : (d.map f).values = d.values.map f := by
  simp only [values, map, List.map_map, Function.comp_def]

omit [DecidableEq κ] in
@[simp] theorem last?_map (d : OrderedDict κ α) :
    (d.map f).last? = d.last?.map (fun e => (e.1, f e.2)) :=
  List.getLast?_map

@[simp] theorem get?_map (d : OrderedDict κ α) (k : κ) : (d.map f).get? k = (d.get? k).map f := by
  obtain ⟨es, hnodup⟩ := d
  show getEntries k (es.map (fun e => (e.1, f e.2))) = (getEntries k es).map f
  clear hnodup
  induction es with
  | nil => rfl
  | cons e es ih =>
      by_cases he : e.1 = k
      · simp [getEntries, he]
      · simp only [List.map_cons, getEntries, if_neg he, ih]

theorem set_map (d : OrderedDict κ α) (k : κ) (a : α) :
    (d.map f).set k (f a) = (d.set k a).map f := by
  obtain ⟨es, hnodup⟩ := d
  apply OrderedDict.ext
  show setEntries k (f a) (es.map (fun e => (e.1, f e.2))) =
    (setEntries k a es).map (fun e => (e.1, f e.2))
  clear hnodup
  induction es with
  | nil => rfl
  | cons e es ih =>
      by_cases he : e.1 = k
      · simp [setEntries, he]
      · simp only [List.map_cons, setEntries, if_neg he, ih]

omit [DecidableEq κ] in
theorem evictOver_map (n : Nat) (d : OrderedDict κ α) :
    evictOver n (d.map f) = (evictOver n d).map f := by
  apply OrderedDict.ext
  simp only [evictOver, map, evictEntries_eq_drop, List.length_map, List.map_drop]

omit [DecidableEq κ] in
@[simp] theorem overflow_map (n : Nat) (d : OrderedDict κ α) :
    overflow n (d.map f) = overflow n d := by
  simp only [overflow, keys_map, ← length_keys]

end Map

end OrderedDict

end PaymentConnector.Library
