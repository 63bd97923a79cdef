import Mathlib.Data.List.Perm.Subperm
import RagnorDb.Lib.OrderedMap

/-!
# Values and indexes of ordered maps

The values of a map in key order, loops that rebuild a map from them, and secondary
indexes: a map from labels to the keys of the values that carry them.
-/

open Std

universe u v w x

namespace OrderedMap

variable {κ : Type u} {β : Type v} {cmp : κ → κ → Ordering} [TransCmp cmp]
variable {m m' : ExtTreeMap κ β cmp} {v : β} {k : κ} {P : κ → β → Prop}

/-! ## Values -/

/-- The values, in the order of their keys. -/
def values (m : ExtTreeMap κ β cmp) : List β :=
  m.toList.map Prod.snd

theorem values_eq_nil : values m = [] ↔ m = ∅ := by
  simp [values]

theorem nodup_toList (m : ExtTreeMap κ β cmp) : m.toList.Nodup :=
  .of_map _ (nodup_keys m)

/-- Every entry of a map meets `P`. -/
def Each (P : κ → β → Prop) (m : ExtTreeMap κ β cmp) : Prop :=
  ∀ ⦃k : κ⦄ ⦃v : β⦄, m[k]? = some v → P k v

theorem Each.empty : Each P (∅ : ExtTreeMap κ β cmp) := by
  intro k v h
  simp at h

theorem Each.imp {Q : κ → β → Prop} (h : Each P m)
    (hpq : ∀ k v, m[k]? = some v → P k v → Q k v) : Each Q m :=
  fun k v hk => hpq k v hk (h hk)

/-- Every entry of `m` is one of `m'`. -/
def Sub (m m' : ExtTreeMap κ β cmp) : Prop :=
  ∀ (k : κ) (v : β), m[k]? = some v → m'[k]? = some v

theorem Each.of_sub (h : Each P m') (hsub : Sub m m') : Each P m :=
  fun k v hk => h (hsub k v hk)

theorem mem_insert_of_mem (k : κ) (v : β) : ∀ a ∈ m, a ∈ m.insert k v :=
  fun _ ha => ExtTreeMap.mem_insert.mpr (.inr ha)

variable [LawfulEqCmp cmp]

theorem mem_values : v ∈ values m ↔ ∃ k : κ, m[k]? = some v := by
  simp [values]

theorem getElem?_filter_eq_some {p : κ → β → Bool} :
    (m.filter p)[k]? = some v ↔ m[k]? = some v ∧ p k v := by
  rw [ExtTreeMap.getElem?_filter, Option.pfilter_eq_some_iff]
  simp only [ExtTreeMap.getKey_eq]
  exact ⟨fun ⟨h, hp⟩ => ⟨h, hp⟩, fun ⟨h, hp⟩ => ⟨h, hp⟩⟩

theorem Each.insert (h : Each P m) (hk : P k v) : Each P (m.insert k v) := by
  intro a w ha
  rcases getElem?_insert_eq_some.mp ha with ⟨rfl, rfl⟩ | ⟨_, ha⟩
  · exact hk
  · exact h ha

theorem Each.forall_mem_values {Q : β → Prop}
    (h : Each P m) (hpq : ∀ k v, P k v → Q v) : ∀ v ∈ values m, Q v := by
  intro v hv
  obtain ⟨k, hk⟩ := mem_values.mp hv
  exact hpq k v (h hk)

/-! ## Parts of a map -/

theorem Sub.insert (h : Sub m m') (hk : m'[k]? = some v) : Sub (m.insert k v) m' :=
  Each.insert (P := fun k v => m'[k]? = some v) h hk

theorem Sub.insert_new (hk : m[k]? = none) (v : β) : Sub m (m.insert k v) := by
  intro a w ha
  exact (getElem?_insert_new_eq_some hk).mpr (.inr ha)

theorem Sub.erase [DecidableEq κ] (m : ExtTreeMap κ β cmp) (k : κ) : Sub (m.erase k) m := by
  intro a v ha
  rw [getElem?_erase] at ha
  split at ha
  · cases ha
  · exact ha

theorem Sub.filter (m : ExtTreeMap κ β cmp) (p : κ → β → Bool) : Sub (m.filter p) m :=
  fun _ _ ha => (getElem?_filter_eq_some.mp ha).1

theorem Sub.countP_le (h : Sub m m') (p : β → Bool) :
    (values m).countP p ≤ (values m').countP p := by
  have hsub : m.toList ⊆ m'.toList := by
    intro e he
    rw [ExtTreeMap.mem_toList_iff_getElem?_eq_some] at he ⊢
    exact h _ _ he
  simp only [values, List.countP_map]
  exact (List.subperm_of_subset (nodup_toList m) hsub).countP_le _

/-- A new entry is counted once more. -/
theorem countP_values_insert (hk : m[k]? = none) (p : β → Bool) :
    (values (m.insert k v)).countP p = (values m).countP p + if p v then 1 else 0 := by
  have hperm : (m.insert k v).toList.Perm (m.toList ++ [(k, v)]) := by
    classical
    exact toList_perm ExtTreeMap.getElem?_insert_self hk fun a ha => by
      rw [getElem?_insert, if_neg ha]
  simp only [values, List.countP_map]
  rw [hperm.countP_eq, List.countP_append, List.countP_singleton]
  rfl

/-! ## Loops over the values -/

/-- The rule for a loop that takes the entries of a map in order: a relation between the part
of the map taken so far and the state, kept by every round, holds of the whole map at the
end. -/
theorem exists_foldlM_toList {σ ε : Type*} {f : σ → κ × β → Except ε σ}
    {R : ExtTreeMap κ β cmp → σ → Prop} {s : σ} (h0 : R ∅ s)
    (hstep : ∀ {part t k v}, Sub part m → m[k]? = some v → part[k]? = none → R part t →
      ∃ t', f t (k, v) = .ok t' ∧ R (part.insert k v) t') :
    ∃ t, m.toList.foldlM f s = .ok t ∧ R m t := by
  -- The entries of the part are those that the list has already given.
  have hloop := Checked.exists_foldlM (l := m.toList) (f := f)
    (P := fun taken t => ∃ part, (∀ k v, part[k]? = some v ↔ (k, v) ∈ taken) ∧ R part t) ?_
    ⟨∅, by simp, h0⟩
  · obtain ⟨t, ht, part, hpart, hR⟩ := hloop
    refine ⟨t, ht, ?_⟩
    have hm : part = m := by
      refine ext_some fun k v => ?_
      rw [hpart, ExtTreeMap.mem_toList_iff_getElem?_eq_some]
    rwa [← hm]
  · rintro taken e t htaken ⟨part, hpart, hR⟩
    have hmem : ∀ k v, (k, v) ∈ taken ++ [e] → m[k]? = some v := fun k v h =>
      ExtTreeMap.mem_toList_iff_getElem?_eq_some.mp (htaken.subset h)
    have hnew : part[e.1]? = none := by
      rw [Option.eq_none_iff_forall_ne_some]
      intro v hv
      have hkeys := (nodup_keys m).sublist (htaken.sublist.map Prod.fst)
      rw [List.map_append, List.nodup_append] at hkeys
      have htaken : e.1 ∈ taken.map Prod.fst :=
        List.mem_map.mpr ⟨(e.1, v), (hpart e.1 v).mp hv, rfl⟩
      exact hkeys.2.2 e.1 htaken e.1 (by simp) rfl
    obtain ⟨t', ht', hR'⟩ := hstep
      (fun k v h => hmem k v (List.mem_append_left _ ((hpart k v).mp h)))
      (hmem e.1 e.2 (by simp)) hnew hR
    refine ⟨t', ht', _, fun k v => ?_, hR'⟩
    rw [getElem?_insert_new_eq_some hnew, List.mem_append, hpart, List.mem_singleton, Prod.ext_iff,
      or_comm, eq_comm, eq_comm (a := e.2)]

theorem exists_foldlM_values {σ ε : Type*} {f : σ → β → Except ε σ}
    {R : ExtTreeMap κ β cmp → σ → Prop} {s : σ} (h0 : R ∅ s)
    (hstep : ∀ {part t k v}, Sub part m → m[k]? = some v → part[k]? = none → R part t →
      ∃ t', f t v = .ok t' ∧ R (part.insert k v) t') :
    ∃ t, (values m).foldlM f s = .ok t ∧ R m t := by
  rw [values, List.foldlM_map]
  exact exists_foldlM_toList h0 hstep

theorem foldl_insert_values {key : β → κ} (hkey : Each (fun k v => key v = k) m) :
    (values m).foldl (fun acc v => acc.insert (key v) v) (∅ : ExtTreeMap κ β cmp) = m := by
  rw [values, List.foldl_map]
  refine Eq.trans (List.foldl_ext _ _ _ ?_) (foldl_insert_toList m)
  intro acc e he
  rw [hkey (ExtTreeMap.mem_toList_iff_getElem?_eq_some.mp he)]

theorem insert_insert (m : ExtTreeMap κ β cmp) (k : κ) (v w : β) :
    (m.insert k v).insert k w = m.insert k w := by
  classical
  apply ExtTreeMap.ext_getElem?
  intro a
  rw [getElem?_insert, getElem?_insert, getElem?_insert]
  by_cases h : k = a <;> simp [h]

/-- Whether the keys of a list are strictly ascending. -/
def strictlyAscending {α : Type w} (cmp : κ → κ → Ordering) (key : α → κ) : List α → Bool
  | a :: b :: l => cmp (key a) (key b) == .lt && strictlyAscending cmp key (b :: l)
  | _ => true

omit [TransCmp cmp] [LawfulEqCmp cmp] in
theorem strictlyAscending_of_pairwise {α : Type w} {key : α → κ} {l : List α}
    (h : l.Pairwise fun a b => cmp (key a) (key b) = .lt) : strictlyAscending cmp key l := by
  induction l with
  | nil => rfl
  | cons a l ih =>
    cases l with
    | nil => rfl
    | cons b =>
      rw [List.pairwise_cons] at h
      simp [strictlyAscending, h.1 b (by simp), ih h.2]

theorem strictlyAscending_map_toList {α : Type w} {g : κ × β → α}
    {key : α → κ} (hkey : Each (fun k v => key (g (k, v)) = k) m) :
    strictlyAscending cmp key (m.toList.map g) := by
  apply strictlyAscending_of_pairwise
  rw [List.pairwise_map]
  refine m.ordered_keys_toList.imp_of_mem ?_
  intro a b ha hb hab
  rw [ExtTreeMap.mem_toList_iff_getElem?_eq_some] at ha hb
  rwa [hkey ha, hkey hb]

/-! ## Indexes -/

section Index

variable {ι : Type x} {cmpι : ι → ι → Ordering} [TransCmp cmpι] [LawfulEqCmp cmpι]
  {label : β → Option ι} {index index' : ExtTreeMap ι κ cmpι} {m : ExtTreeMap κ β cmp}
variable {k : κ} {v : β} {i : ι}

/-- `index` holds exactly the labels of the values of `m`, so no label occurs twice. -/
def Indexes (label : β → Option ι) (index : ExtTreeMap ι κ cmpι) (m : ExtTreeMap κ β cmp) : Prop :=
  ∀ (i : ι) (k : κ), index[i]? = some k ↔ ∃ v, m[k]? = some v ∧ label v = some i

omit [LawfulEqCmp cmp] [LawfulEqCmp cmpι] in
theorem Indexes.empty : Indexes label (∅ : ExtTreeMap ι κ cmpι) (∅ : ExtTreeMap κ β cmp) := by
  intro i k
  simp

section

variable (h : Indexes label index m)
include h

omit [LawfulEqCmp cmp] in
theorem Indexes.unique (h' : Indexes label index' m) : index = index' := by
  refine ext_some fun i k => ?_
  rw [h i k, h' i k]

omit [LawfulEqCmp cmp] [LawfulEqCmp cmpι] in
theorem Indexes.eq_of_label {k' : κ} {v' : β} (hk : m[k]? = some v) (hk' : m[k']? = some v')
    (hv : label v = some i) (hv' : label v' = some i) : k = k' := by
  have hi := (h i k).mpr ⟨v, hk, hv⟩
  have hi' := (h i k').mpr ⟨v', hk', hv'⟩
  exact Option.some.inj (hi.symm.trans hi')

theorem Indexes.insert (hk : m[k]? = none) (hv : label v = some i) (hi : index[i]? = none) :
    Indexes label (index.insert i k) (m.insert k v) := by
  intro j a
  simp only [getElem?_insert_new_eq_some hk, getElem?_insert_new_eq_some hi, h j a]
  constructor
  · rintro (⟨rfl, rfl⟩ | ⟨w, ha, hw⟩)
    · exact ⟨v, .inl ⟨rfl, rfl⟩, hv⟩
    · exact ⟨w, .inr ha, hw⟩
  · rintro ⟨w, ⟨rfl, rfl⟩ | ha, hw⟩
    · exact .inl ⟨Option.some.inj (hv.symm.trans hw), rfl⟩
    · exact .inr ⟨w, ha, hw⟩

omit [LawfulEqCmp cmpι] in
theorem Indexes.insert_unlabelled (hk : m[k]? = none) (hv : label v = none) :
    Indexes label index (m.insert k v) := by
  intro j a
  simp only [getElem?_insert_new_eq_some hk, h j a]
  constructor
  · rintro ⟨w, ha, hw⟩
    exact ⟨w, .inr ha, hw⟩
  · rintro ⟨w, ⟨rfl, rfl⟩ | ha, hw⟩
    · cases hv.symm.trans hw
    · exact ⟨w, ha, hw⟩

theorem Indexes.replace {w : β} (hk : m[k]? = some w) (hw : label w = some i)
    (hv : label v = some i) : Indexes label (index.insert i k) (m.insert k v) := by
  intro j a
  simp only [getElem?_insert_eq_some]
  constructor
  · rintro (⟨rfl, rfl⟩ | ⟨hne, hj⟩)
    · exact ⟨v, .inl ⟨rfl, rfl⟩, hv⟩
    · obtain ⟨x, ha, hx⟩ := (h j a).mp hj
      refine ⟨x, .inr ⟨?_, ha⟩, hx⟩
      rintro rfl
      cases hk.symm.trans ha
      exact hne (Option.some.inj (hw.symm.trans hx))
  · rintro ⟨x, ⟨rfl, rfl⟩ | ⟨hne, ha⟩, hx⟩
    · exact .inl ⟨Option.some.inj (hv.symm.trans hx), rfl⟩
    · refine .inr ⟨?_, (h j a).mpr ⟨x, ha, hx⟩⟩
      rintro rfl
      exact hne (h.eq_of_label hk ha hw hx)

omit [LawfulEqCmp cmp] [LawfulEqCmp cmpι] in
theorem Indexes.getElem?_eq_none {part : ExtTreeMap κ β cmp} {partIndex : ExtTreeMap ι κ cmpι}
    (hpart : Indexes label partIndex part) (hsub : Sub part m) (hk : m[k]? = some v)
    (hv : label v = some i) (hnew : part[k]? = none) : partIndex[i]? = none := by
  rw [Option.eq_none_iff_forall_ne_some]
  intro k' hk'
  obtain ⟨w, hw, hlabel⟩ := (hpart i k').mp hk'
  cases h.eq_of_label hk (hsub k' w hw) hv hlabel
  cases hnew.symm.trans hw

end

end Index

end OrderedMap
