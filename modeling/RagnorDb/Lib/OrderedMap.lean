import Mathlib.Tactic.Tauto
import RagnorDb.Lib.Checked

/-!
# Ordered maps

Lookups in extensional tree maps over lawful orders, orders on composite keys, and the
loop that collects entries one by one and rejects a repeated one.
-/

open Std Checked

universe u v w

namespace OrderedMap

variable {κ : Type u} {β : Type v} {cmp : κ → κ → Ordering} [TransCmp cmp]
variable {m : ExtTreeMap κ β cmp} {k : κ} {n : Nat} {l : List (κ × β)} {v : β}

theorem mem_of_getElem? (h : m[k]? = some v) : k ∈ m := by
  simp [ExtTreeMap.mem_iff_isSome_getElem?, h]

theorem exists_of_mem (h : k ∈ m) : ∃ v, m[k]? = some v :=
  Option.isSome_iff_exists.mp (ExtTreeMap.mem_iff_isSome_getElem?.mp h)

theorem not_mem_of_getElem?_eq_none (h : m[k]? = none) : k ∉ m := by
  rw [ExtTreeMap.mem_iff_isSome_getElem?, h]
  exact Bool.false_ne_true

/-- The largest key, read from the entries in order, so that it evaluates. -/
def lastKey? (m : ExtTreeMap κ β cmp) : Option κ := m.keys.getLast?

theorem lastKey?_eq_maxKey? (m : ExtTreeMap κ β cmp) : lastKey? m = m.maxKey? :=
  m.maxKey?_eq_getLast?_keys.symm

/-- The entry with the smallest key. -/
def firstEntry? (m : ExtTreeMap κ β cmp) : Option (κ × β) := m.toList.head?

/-- The entry with the greatest key. -/
def lastKeyValue? (m : ExtTreeMap κ β cmp) : Option (κ × β) :=
  m.toList.getLast?

theorem lastKeyValue?_eq_none (h : lastKeyValue? m = none) : m = ∅ := by
  simpa [lastKeyValue?] using h

/-- The largest value of `f` over a map, and zero over the empty one. -/
def supBy (f : β → Nat) (m : ExtTreeMap κ β cmp) : Nat :=
  (m.toList.map fun e => f e.2).foldl max 0

theorem nodup_keys (m : ExtTreeMap κ β cmp) : (m.toList.map Prod.fst).Nodup := by
  rw [m.map_fst_toList_eq_keys]
  exact m.nodup_keys

variable [LawfulEqCmp cmp]

theorem getElem?_insert [DecidableEq κ] (m : ExtTreeMap κ β cmp) (k a : κ) (v : β) :
    (m.insert k v)[a]? = if k = a then some v else m[a]? := by
  simp [ExtTreeMap.getElem?_insert]

theorem getElem?_insert_eq_some {a : κ} {w : β} :
    (m.insert k v)[a]? = some w ↔ k = a ∧ v = w ∨ k ≠ a ∧ m[a]? = some w := by
  classical
  rw [getElem?_insert]
  by_cases h : k = a <;> simp [h]

theorem getElem?_insert_new_eq_some {a : κ} {w : β} (hk : m[k]? = none) :
    (m.insert k v)[a]? = some w ↔ k = a ∧ v = w ∨ m[a]? = some w := by
  rw [getElem?_insert_eq_some]
  by_cases h : k = a
  · simp [← h, hk]
  · simp [h]

theorem ext_some {m' : ExtTreeMap κ β cmp}
    (h : ∀ (k : κ) v, m[k]? = some v ↔ m'[k]? = some v) : m = m' :=
  ExtTreeMap.ext_getElem? fun k => Option.ext fun v => h k v

theorem getElem?_erase [DecidableEq κ] (m : ExtTreeMap κ β cmp) (k a : κ) :
    (m.erase k)[a]? = if k = a then none else m[a]? := by
  simp [ExtTreeMap.getElem?_erase]

theorem getElem?_foldl_erase [DecidableEq κ] (l : List κ) (m : ExtTreeMap κ β cmp) (k : κ) :
    (l.foldl ExtTreeMap.erase m)[k]? = if k ∈ l then none else m[k]? := by
  induction l generalizing m with
  | nil => simp
  | cons a l ih =>
    rw [List.foldl_cons, ih, getElem?_erase]
    by_cases hl : k ∈ l
    · simp [hl]
    · by_cases ha : k = a
      · simp [ha]
      · simp [hl, ha, Ne.symm ha]

theorem getElem?_filter (m : ExtTreeMap κ β cmp) (p : κ → Bool) (k : κ) :
    (m.filter fun k _ => p k)[k]? = if p k then m[k]? else none := by
  rw [ExtTreeMap.getElem?_filter]
  simp only [ExtTreeMap.getKey_eq]
  cases m[k]? with
  | none => simp
  | some => simp [Option.pfilter]

theorem mem_filter_keys {p : κ → Bool} : k ∈ (m.filter fun k _ => p k) ↔ p k ∧ k ∈ m := by
  simp [ExtTreeMap.mem_filter]
  tauto

theorem size_congr {m' : ExtTreeMap κ β cmp} (h : ∀ k, k ∈ m ↔ k ∈ m') : m.size = m'.size := by
  have hkeys : m.keys.Perm m'.keys :=
    (List.perm_ext_iff_of_nodup m.nodup_keys m'.nodup_keys).mpr (by simpa using h)
  simpa using hkeys.length_eq

theorem foldl_max_le {l : List Nat} {b : Nat} : l.foldl max b ≤ n ↔ b ≤ n ∧ ∀ a ∈ l, a ≤ n := by
  induction l generalizing b with
  | nil => simp
  | cons c l ih =>
    rw [List.foldl_cons, ih, Nat.max_le, List.forall_mem_cons]
    tauto

theorem supBy_le {f : β → Nat} : supBy f m ≤ n ↔ ∀ (k : κ) (v : β), m[k]? = some v → f v ≤ n := by
  simp only [supBy, foldl_max_le, Nat.zero_le, true_and, List.mem_map, Prod.exists,
    ExtTreeMap.mem_toList_iff_getElem?_eq_some]
  constructor
  · intro h k v hv
    exact h _ ⟨k, v, hv, rfl⟩
  · rintro h _ ⟨k, v, hv, rfl⟩
    exact h k v hv

/-- The entries of a map are one of them and those of the rest. -/
theorem toList_perm {rest : ExtTreeMap κ β cmp} (h : m[k]? = some v) (hk : rest[k]? = none)
    (hrest : ∀ a, k ≠ a → m[a]? = rest[a]?) : m.toList.Perm (rest.toList ++ [(k, v)]) := by
  refine (List.perm_ext_iff_of_nodup (nodup_keys _).of_map (List.nodup_append.mpr
    ⟨(nodup_keys _).of_map, List.nodup_singleton _, ?_⟩)).mpr fun ⟨a, b⟩ => ?_
  · simp only [List.mem_singleton]
    rintro e he _ rfl rfl
    simp [hk] at he
  · by_cases ha : k = a
    · simp [ExtTreeMap.mem_toList_iff_getElem?_eq_some, ← ha, h, hk, eq_comm]
    · simp [ExtTreeMap.mem_toList_iff_getElem?_eq_some, hrest a ha, Ne.symm ha]

theorem lastKeyValue?_eq_some {e : κ × β} (h : lastKeyValue? m = some e) :
    m[e.1]? = some e.2 ∧ ∀ k v, m[k]? = some v → k = e.1 ∨ cmp k e.1 = .lt := by
  obtain ⟨l, hl⟩ := List.getLast?_eq_some_iff.mp h
  have hmem : ∀ k v, m[k]? = some v ↔ (k, v) ∈ l ++ [e] := by
    intro k v
    rw [← hl, ExtTreeMap.mem_toList_iff_getElem?_eq_some]
  have hsorted := m.ordered_keys_toList
  rw [hl, List.pairwise_append] at hsorted
  refine ⟨(hmem e.1 e.2).mpr (by simp), fun k v hk => ?_⟩
  rcases List.mem_append.mp ((hmem k v).mp hk) with hlt | heq
  · exact .inr (hsorted.2.2 (k, v) hlt e (by simp))
  · exact .inl (congrArg Prod.fst (List.mem_singleton.mp heq))

theorem getElem?_ofList (hl : (l.map Prod.fst).Nodup) :
    (ExtTreeMap.ofList l cmp)[k]? = some v ↔ (k, v) ∈ l := by
  classical
  have hdistinct : l.Pairwise fun a b => ¬ cmp a.1 b.1 = .eq := by
    rw [List.Nodup, List.pairwise_map] at hl
    exact hl.imp fun hab heq => hab (LawfulEqCmp.eq_of_compare heq)
  have hmem : ∀ {v}, (k, v) ∈ l → (ExtTreeMap.ofList l cmp)[k]? = some v := fun h =>
    ExtTreeMap.getElem?_ofList_of_mem (by simp) hdistinct h
  constructor
  · intro h
    have hk : k ∈ ExtTreeMap.ofList l cmp := mem_of_getElem? h
    rw [ExtTreeMap.mem_ofList, List.contains_iff_mem] at hk
    obtain ⟨⟨k', v'⟩, hmem', rfl⟩ := List.mem_map.mp hk
    cases h.symm.trans (hmem hmem')
    exact hmem'
  · exact hmem

theorem foldl_insert_toList (m : ExtTreeMap κ β cmp) :
    m.toList.foldl (fun acc e => acc.insert e.1 e.2) (∅ : ExtTreeMap κ β cmp) = m := by
  rw [← ExtTreeMap.ofList_eq_foldl]
  refine ext_some fun a v => ?_
  rw [getElem?_ofList (nodup_keys m), ExtTreeMap.mem_toList_iff_getElem?_eq_some]

/-- The same values under other keys. -/
def rekey {κ' : Type w} (cmp' : κ' → κ' → Ordering) [TransCmp cmp'] (f : κ → κ')
    (m : ExtTreeMap κ β cmp) : ExtTreeMap κ' β cmp' :=
  .ofList (m.toList.map fun e => (f e.1, e.2)) cmp'

variable {m : ExtTreeMap κ β cmp} {κ' : Type w}

theorem getElem?_rekey {cmp' : κ' → κ' → Ordering} [TransCmp cmp'] [LawfulEqCmp cmp'] {f : κ → κ'}
    (hf : ∀ k ∈ m, ∀ k' ∈ m, f k = f k' → k = k') {a : κ'} {v : β} :
    (rekey cmp' f m)[a]? = some v ↔ ∃ k, m[k]? = some v ∧ f k = a := by
  have hmem : ∀ e ∈ m.toList, e.1 ∈ m := by
    intro e he
    exact mem_of_getElem? (ExtTreeMap.mem_toList_iff_getElem?_eq_some.mp he)
  rw [rekey, getElem?_ofList]
  · simp only [List.mem_map, Prod.mk.injEq, Prod.exists,
      ExtTreeMap.mem_toList_iff_getElem?_eq_some]
    constructor
    · rintro ⟨k, v', hk, rfl, rfl⟩
      exact ⟨k, hk, rfl⟩
    · rintro ⟨k, hk, rfl⟩
      exact ⟨k, v, hk, rfl, rfl⟩
  · rw [List.map_map]
    have hkeys := nodup_keys m
    rw [List.Nodup, List.pairwise_map] at hkeys ⊢
    refine hkeys.imp_of_mem ?_
    intro a b ha hb hab heq
    exact hab (hf _ (hmem a ha) _ (hmem b hb) heq)

/-- Keys that can be changed back give the map back. -/
theorem rekey_rekey {cmp' : κ' → κ' → Ordering} [TransCmp cmp'] [LawfulEqCmp cmp'] {f : κ → κ'}
    {g : κ' → κ} (hg : ∀ k ∈ m, g (f k) = k) : rekey cmp g (rekey cmp' f m) = m := by
  have hf : ∀ k ∈ m, ∀ k' ∈ m, f k = f k' → k = k' := by
    intro k hk k' hk' heq
    rw [← hg k hk, heq, hg k' hk']
  have hkeys : ∀ a ∈ rekey cmp' f m, ∃ k ∈ m, f k = a := by
    intro a ha
    obtain ⟨v, hv⟩ := exists_of_mem ha
    obtain ⟨k, hk, rfl⟩ := (getElem?_rekey hf).mp hv
    exact ⟨k, mem_of_getElem? hk, rfl⟩
  refine ext_some fun k v => ?_
  rw [getElem?_rekey]
  · constructor
    · rintro ⟨a, ha, rfl⟩
      obtain ⟨k, hk, rfl⟩ := (getElem?_rekey hf).mp ha
      rw [hg k (mem_of_getElem? hk), hk]
    · intro hk
      exact ⟨f k, (getElem?_rekey hf).mpr ⟨k, hk, rfl⟩, hg k (mem_of_getElem? hk)⟩
  · intro a ha a' ha' heq
    obtain ⟨k, hk, rfl⟩ := hkeys a ha
    obtain ⟨k', hk', rfl⟩ := hkeys a' ha'
    rw [hg k hk, hg k' hk'] at heq
    rw [heq]

theorem mem_foldl_insert :
    k ∈ l.foldl (fun acc e => acc.insert e.1 e.2) m ↔ k ∈ m ∨ ∃ e ∈ l, e.1 = k := by
  classical
  rw [← ExtTreeMap.insertMany_list_eq_foldl, ExtTreeMap.mem_insertMany_list, List.contains_iff_mem,
    List.mem_map]

theorem mem_of_getElem?_foldl_insert
    (h : (l.foldl (fun acc e => acc.insert e.1 e.2) m)[k]? = some v) :
    (k, v) ∈ l ∨ m[k]? = some v := by
  induction l generalizing m with
  | nil => exact .inr h
  | cons e l ih =>
    rcases ih h with hmem | hlookup
    · exact .inl (List.mem_cons_of_mem _ hmem)
    · rcases getElem?_insert_eq_some.mp hlookup with ⟨rfl, rfl⟩ | ⟨-, hlookup⟩
      · exact .inl (by simp)
      · exact .inr hlookup

theorem mem_foldl_insert_set {l : List κ} {s : ExtTreeSet κ cmp} :
    k ∈ l.foldl (·.insert ·) s ↔ k ∈ s ∨ k ∈ l := by
  classical
  rw [← ExtTreeSet.insertMany_list_eq_foldl, ExtTreeSet.mem_insertMany_list, List.contains_iff_mem]

section MapValuesM

variable {κ β γ ε : Type} {cmp : κ → κ → Ordering} [TransCmp cmp] [LawfulEqCmp cmp]
  {f : κ → β → Except ε γ} {m : ExtTreeMap κ β cmp}
variable {m' : ExtTreeMap κ γ cmp} {k : κ}

/-- A fallible function over the values of a map, in key order. -/
def mapValuesM (f : κ → β → Except ε γ) (m : ExtTreeMap κ β cmp) :
    Except ε (ExtTreeMap κ γ cmp) := do
  let entries ← m.toList.mapM fun (k, v) => do
    let w ← f k v
    return (k, w)
  return ExtTreeMap.ofList entries cmp

theorem keys_of_mapValuesM {l : List (κ × β)} {entries : List (κ × γ)}
    (h : List.Forall₂ (fun e e' => (do let w ← f e.1 e.2; return (e.1, w)) = .ok e') l entries) :
    entries.map Prod.fst = l.map Prod.fst := by
  induction h with
  | nil => rfl
  | cons hx _ ih =>
    simp only [bind_eq_ok, pure_eq_ok] at hx
    obtain ⟨w, _, rfl⟩ := hx
    rw [List.map_cons, List.map_cons, ih]

theorem getElem?_of_mapValuesM (h : mapValuesM f m = .ok m')
    {w : γ} : m'[k]? = some w ↔ ∃ v, m[k]? = some v ∧ f k v = .ok w := by
  simp only [mapValuesM, bind_eq_ok, pure_eq_ok] at h
  obtain ⟨entries, hentries, rfl⟩ := h
  have hkeys := keys_of_mapValuesM (mapM_eq_ok.mp hentries)
  rw [getElem?_ofList (by rw [hkeys]; exact nodup_keys m)]
  constructor
  · intro hmem
    obtain ⟨⟨k', v⟩, hv, hx⟩ := exists_of_mem_mapM hentries hmem
    simp only [bind_eq_ok, pure_eq_ok, Prod.mk.injEq] at hx
    obtain ⟨w', hw, rfl, rfl⟩ := hx
    exact ⟨v, ExtTreeMap.mem_toList_iff_getElem?_eq_some.mp hv, hw⟩
  · rintro ⟨v, hv, hw⟩
    obtain ⟨e, hmem, he⟩ := exists_mem_of_mapM hentries
      (ExtTreeMap.mem_toList_iff_getElem?_eq_some.mpr hv)
    simp only [hw, ok_bind, pure_eq_ok] at he
    rw [he]
    exact hmem

theorem exists_of_mapValuesM (h : mapValuesM f m = .ok m') {v : β}
    (hv : m[k]? = some v) : ∃ w, f k v = .ok w ∧ m'[k]? = some w := by
  have hall := h
  simp only [mapValuesM, bind_eq_ok, pure_eq_ok] at hall
  obtain ⟨entries, hentries, _⟩ := hall
  obtain ⟨_, _, he⟩ := exists_mem_of_mapM hentries
    (ExtTreeMap.mem_toList_iff_getElem?_eq_some.mpr hv)
  simp only [bind_eq_ok] at he
  obtain ⟨w, hw, _⟩ := he
  exact ⟨w, hw, (getElem?_of_mapValuesM h).mpr ⟨v, hv, hw⟩⟩

theorem exists_mapValuesM (h : ∀ (k : κ) (v : β), m[k]? = some v → ∃ w, f k v = .ok w) :
    ∃ m', mapValuesM f m = .ok m' := by
  have hentries : ∀ e ∈ m.toList, ∃ e', (do let w ← f e.1 e.2; return (e.1, w)) = .ok e' := by
    intro e he
    obtain ⟨w, hw⟩ := h e.1 e.2 (ExtTreeMap.mem_toList_iff_getElem?_eq_some.mp he)
    exact ⟨(e.1, w), by rw [hw]; rfl⟩
  obtain ⟨entries, hentries⟩ := exists_mapM hentries
  exact ⟨ExtTreeMap.ofList entries cmp, by simp only [mapValuesM, hentries]; rfl⟩

end MapValuesM

end OrderedMap

/-! ## Composite keys -/

section Keys

variable {α : Type u} {β : Type v} [Ord β]

theorem OrderedMap.lawfulEqCmp_compareOn [LawfulEqOrd β] {key : α → β}
    (hkey : Function.Injective key) : LawfulEqCmp (compareOn key) where
  compare_self := by simp [compareOn]
  eq_of_compare h := hkey (LawfulEqOrd.eq_of_compare h)

/-- The lexicographic order of pairs of numbers. -/
def OrderedMap.comparePair : Nat × Nat → Nat × Nat → Ordering :=
  compareOn fun p => [p.1, p.2]

instance : TransCmp OrderedMap.comparePair :=
  inferInstanceAs (TransCmp (compareOn fun p : Nat × Nat => [p.1, p.2]))

instance : LawfulEqCmp OrderedMap.comparePair :=
  OrderedMap.lawfulEqCmp_compareOn (by
    intro p q h
    simp only [List.cons.injEq, and_true] at h
    exact Prod.ext h.1 h.2)

end Keys

/-! ## Checked collection -/

namespace Checked

variable {ε : Type u} {σ δ : Type} {γ : Type v} {κ : Type w}
variable {l : List γ} {init m : σ}

/-- Check the elements of a list in order and add each to a collection, which must not
hold it yet. -/
def collect (entry : γ → Except ε δ) (present : σ → δ → Bool) (insert : σ → δ → σ)
    (duplicate : δ → ε) (l : List γ) (init : σ) : Except ε σ :=
  l.foldlM (fun acc x => do
    let e ← entry x
    rejectIf (present acc e) (duplicate e)
    return insert acc e) init

variable {entry : γ → Except ε δ} {present : σ → δ → Bool} {insert : σ → δ → σ}
  {duplicate : δ → ε} {key : δ → κ}

theorem collect_cons_eq_ok {x : γ} :
    collect entry present insert duplicate (x :: l) init = .ok m ↔
      ∃ e, entry x = .ok e ∧ present init e = false ∧
        collect entry present insert duplicate l (insert init e) = .ok m := by
  simp only [collect, List.foldlM_cons, bind_eq_ok, rejectIf_eq_ok, pure_eq_ok, exists_const,
    Bool.not_eq_true]
  constructor
  · rintro ⟨_, ⟨e, he, hp, rfl⟩, hl⟩
    exact ⟨e, he, hp, hl⟩
  · rintro ⟨e, he, hp, hl⟩
    exact ⟨_, ⟨e, he, hp, rfl⟩, hl⟩

theorem failsWith_collect {P : ε → Prop}
    (hentry : ∀ x ∈ l, FailsWith P (entry x)) (hduplicate : ∀ d, P (duplicate d)) :
    FailsWith P (collect entry present insert duplicate l init) := by
  refine failsWith_foldlM (fun acc x hx => ?_) init
  simp only [failsWith_bind, failsWith_rejectIf, failsWith_pure, implies_true, and_true]
  exact ⟨hentry x hx, fun d _ _ => hduplicate d⟩

/-- The loop succeeds when every element passes its check and no key occurs twice; then it
has added all of them. -/
theorem collect_eq_ok
    (hpresent : ∀ m e e', present (insert m e) e' = true ↔ key e = key e' ∨ present m e' = true) :
    collect entry present insert duplicate l init = .ok m ↔
      ∃ ds, l.mapM entry = .ok ds ∧ (ds.map key).Nodup ∧ (∀ d ∈ ds, present init d = false) ∧
        m = ds.foldl insert init := by
  induction l generalizing init with
  | nil =>
    constructor
    · rintro ⟨⟩
      exact ⟨[], rfl, by simp, by simp, rfl⟩
    · rintro ⟨ds, hds, -, -, rfl⟩
      cases hds
      rfl
  | cons x l ih =>
    have hfresh : ∀ m e e', present (insert m e) e' = false ↔
        key e ≠ key e' ∧ present m e' = false := by
      simp [← Bool.not_eq_true, hpresent]
    simp only [collect_cons_eq_ok, ih, List.mapM_cons, bind_eq_ok, pure_eq_ok, hfresh]
    constructor
    · rintro ⟨e, he, hp, ds, hds, hnodup, hrest, rfl⟩
      refine ⟨e :: ds, ⟨e, he, ds, hds, rfl⟩, ?_, ?_, rfl⟩
      · rw [List.map_cons, List.nodup_cons, List.mem_map]
        refine ⟨?_, hnodup⟩
        rintro ⟨d, hd, hkey⟩
        exact (hrest d hd).1 hkey.symm
      · exact List.forall_mem_cons.mpr ⟨hp, fun d hd => (hrest d hd).2⟩
    · rintro ⟨_, ⟨e, he, ds, hds, rfl⟩, hnodup, hrest, rfl⟩
      rw [List.map_cons, List.nodup_cons] at hnodup
      obtain ⟨hp, hrest⟩ := List.forall_mem_cons.mp hrest
      exact ⟨e, he, hp, ds, hds, hnodup.2, fun d hd =>
        ⟨fun hkey => hnodup.1 (List.mem_map.mpr ⟨d, hd, hkey.symm⟩), hrest d hd⟩, rfl⟩

theorem contains_insert_entry {κ β : Type} {cmp : κ → κ → Ordering} [TransCmp cmp]
    [LawfulEqCmp cmp] (m : ExtTreeMap κ β cmp) (e e' : κ × β) :
    (m.insert e.1 e.2).contains e'.1 = true ↔ e.1 = e'.1 ∨ m.contains e'.1 = true := by
  simp

/-- What every checked entry has, every entry of the collected map has. -/
theorem of_collect_insert {κ β : Type} {cmp : κ → κ → Ordering} [TransCmp cmp] [LawfulEqCmp cmp]
    {entry : γ → Except ε (κ × β)} {present : ExtTreeMap κ β cmp → κ × β → Bool}
    {duplicate : κ × β → ε} {l : List γ} {m : ExtTreeMap κ β cmp} {P : κ → β → Prop}
    (hentry : ∀ x e, entry x = .ok e → P e.1 e.2)
    (h : collect entry present (fun m e => m.insert e.1 e.2) duplicate l ∅ = .ok m) :
    ∀ (k : κ) v, m[k]? = some v → P k v := by
  refine foldlM_ok (P := fun _ (m : ExtTreeMap κ β cmp) => ∀ (k : κ) v, m[k]? = some v → P k v)
    ?_ (by simp) h
  intro _ x acc acc' hacc hstep k v hv
  simp only [bind_eq_ok, pure_eq_ok] at hstep
  obtain ⟨e, he, _, -, rfl⟩ := hstep
  rw [ExtTreeMap.getElem?_insert] at hv
  split at hv
  · next heq =>
      cases LawfulEqCmp.eq_of_compare heq
      cases hv
      exact hentry x e he
  · exact hacc k v hv

theorem collect_toList {κ β : Type} {cmp : κ → κ → Ordering} [TransCmp cmp] [LawfulEqCmp cmp]
    {entry : γ → Except ε (κ × β)} {duplicate : κ × β → ε} {l : List γ}
    {m : ExtTreeMap κ β cmp} (h : List.Forall₂ (fun x e => entry x = .ok e) l m.toList) :
    collect entry (fun (m : ExtTreeMap κ β cmp) e => m.contains e.1)
      (fun m e => m.insert e.1 e.2) duplicate l ∅ = .ok m :=
  (collect_eq_ok contains_insert_entry).mpr ⟨m.toList, mapM_eq_ok.mpr h, OrderedMap.nodup_keys m,
    by simp, (OrderedMap.foldl_insert_toList m).symm⟩

end Checked
