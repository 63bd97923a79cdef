import RagnorDb.Lib.OrderedMap

/-!
# Two-level ordered maps

A `VersionMap` sends a key to an ordered map of versions.  The outer map never needs
an entry for a key without versions, and `NoEmpty` says that it has none; under that
condition the map is determined by its version lookups and is rebuilt exactly from the
ordered list of its entries.
-/

open Std

universe u v w

/-- An ordered map of ordered version maps. -/
abbrev VersionMap (κ : Type u) (τ : Type v) (β : Type w) [Ord κ] [Ord τ] :=
  ExtTreeMap κ (ExtTreeMap τ β compare) compare

namespace VersionMap

variable {κ : Type u} {τ : Type v} {β : Type w} [Ord κ] [TransOrd κ] [Ord τ] [TransOrd τ]
variable {m : VersionMap κ τ β} {k : κ} {versions : ExtTreeMap τ β compare} {t : τ} {v : β}
  {l : List (κ × τ × β)}

variable (m : VersionMap κ τ β)

/-- The version of `k` stored under `t`. -/
def lookup (k : κ) (t : τ) : Option β :=
  m[k]?.bind (·[t]?)

/-- Store a version, creating the key's version map when it is missing. -/
def insertVersion (k : κ) (t : τ) (v : β) : VersionMap κ τ β :=
  m.insert k ((m[k]?.getD ∅).insert t v)

/-- Remove a version, and the key with its last version. -/
def eraseVersion (k : κ) (t : τ) : VersionMap κ τ β :=
  match m[k]? with
  | none => m
  | some versions =>
    if (versions.erase t).isEmpty then m.erase k else m.insert k (versions.erase t)

/-- No key is kept with an empty version map. -/
def NoEmpty : Prop :=
  ∀ (k : κ) (versions : ExtTreeMap τ β compare), m[k]? = some versions → versions ≠ ∅

/-- All versions in key order, and in version order within a key. -/
def entries : List (κ × τ × β) :=
  m.toList.flatMap fun e => e.2.toList.map fun version => (e.1, version.1, version.2)

variable {m}

/-! ## Lookups -/

@[simp] theorem lookup_empty (k : κ) (t : τ) : lookup (∅ : VersionMap κ τ β) k t = none := by
  simp [lookup]

theorem lookup_of_getElem? (h : m[k]? = some versions) (t : τ) : m.lookup k t = versions[t]? := by
  simp [lookup, h]

theorem lookup_of_getElem?_none (h : m[k]? = none) (t : τ) : m.lookup k t = none := by
  simp [lookup, h]

omit [TransOrd τ] in
theorem noEmpty_empty : NoEmpty (∅ : VersionMap κ τ β) := by
  intro k versions h
  simp at h

variable [LawfulEqOrd κ]

theorem getElem?_insertVersion [DecidableEq κ] (m : VersionMap κ τ β) (k k' : κ) (t : τ) (v : β) :
    (m.insertVersion k t v)[k']? =
      if k = k' then some ((m[k']?.getD ∅).insert t v) else m[k']? := by
  rw [insertVersion, OrderedMap.getElem?_insert]
  by_cases h : k = k' <;> simp [h]

theorem getElem?_eraseVersion [DecidableEq κ] (m : VersionMap κ τ β) (k k' : κ) (t : τ) :
    (m.eraseVersion k t)[k']? =
      if k = k' then (m[k']?.map (·.erase t)).filter (fun versions => !versions.isEmpty)
      else m[k']? := by
  unfold eraseVersion
  by_cases h : k = k'
  · subst h
    cases hm : m[k]? with
    | none => simp [hm]
    | some versions => by_cases hempty : (versions.erase t).isEmpty = true <;>
        simp [hempty, Option.filter]
  · cases hm : m[k]? with
    | none => simp [h]
    | some versions =>
      by_cases hempty : (versions.erase t).isEmpty = true <;>
        simp [hempty, h, OrderedMap.getElem?_erase, OrderedMap.getElem?_insert]

theorem NoEmpty.insertVersion (hm : m.NoEmpty) (k : κ) (t : τ) (v : β) :
    (m.insertVersion k t v).NoEmpty := by
  classical
  intro k' versions h
  rw [VersionMap.insertVersion, OrderedMap.getElem?_insert] at h
  split at h
  · cases h
    exact ExtTreeMap.insert_ne_empty
  · exact hm k' versions h

theorem NoEmpty.eraseVersion (hm : m.NoEmpty) (k : κ) (t : τ) : (m.eraseVersion k t).NoEmpty := by
  classical
  intro k' versions h
  rw [getElem?_eraseVersion] at h
  split at h
  · simpa using (Option.filter_eq_some_iff.mp h).2
  · exact hm k' versions h

variable [LawfulEqOrd τ]

variable (m : VersionMap κ τ β)

theorem lookup_insertVersion [DecidableEq κ] [DecidableEq τ] (k k' : κ) (t t' : τ) (v : β) :
    (m.insertVersion k t v).lookup k' t' =
      if k = k' ∧ t = t' then some v else m.lookup k' t' := by
  unfold lookup
  rw [getElem?_insertVersion]
  by_cases hk : k = k'
  · cases hm : m[k']? with
    | none | some => simp [hk, OrderedMap.getElem?_insert]
  · simp [hk]

theorem lookup_eraseVersion [DecidableEq κ] [DecidableEq τ] (k k' : κ) (t t' : τ) :
    (m.eraseVersion k t).lookup k' t' =
      if k = k' ∧ t = t' then none else m.lookup k' t' := by
  unfold lookup
  rw [getElem?_eraseVersion]
  by_cases hk : k = k'
  · cases hm : m[k']? with
    | none => simp [hk]
    | some versions =>
      have herase := OrderedMap.getElem?_erase versions t t'
      by_cases hempty : versions.erase t = ∅
      · rw [hempty, ExtTreeMap.getElem?_empty] at herase
        simp [hk, hempty, Option.filter, ← herase]
      · simp [hk, hempty, Option.filter, herase]
  · simp [hk]

theorem lookup_insertVersion_key [DecidableEq κ] [DecidableEq τ] (k k' : κ) (t : τ) (v : β) :
    (m.insertVersion k t v).lookup k' =
      if k = k' then Function.update (m.lookup k') t (some v) else m.lookup k' := by
  funext t'
  rw [lookup_insertVersion]
  by_cases hk : k = k'
  · simp [hk, Function.update_apply, eq_comm]
  · simp [hk]

theorem lookup_eraseVersion_key [DecidableEq κ] [DecidableEq τ] (k k' : κ) (t : τ) :
    (m.eraseVersion k t).lookup k' =
      if k = k' then Function.update (m.lookup k') t none else m.lookup k' := by
  funext t'
  rw [lookup_eraseVersion]
  by_cases hk : k = k'
  · simp [hk, Function.update_apply, eq_comm]
  · simp [hk]

variable {m}

/-! ## Keys without versions -/

omit [LawfulEqOrd κ] in
theorem NoEmpty.getElem?_eq_none (hm : m.NoEmpty) : m[k]? = none ↔ ∀ t, m.lookup k t = none := by
  refine ⟨lookup_of_getElem?_none, fun h => ?_⟩
  cases hk : m[k]? with
  | none => rfl
  | some versions =>
    refine absurd (ExtTreeMap.ext_getElem? fun t => ?_) (hm k versions hk)
    rw [← lookup_of_getElem? hk, h, ExtTreeMap.getElem?_empty]

/-- Without empty version maps the lookups determine the map. -/
theorem NoEmpty.ext {m' : VersionMap κ τ β} (hm : m.NoEmpty) (hm' : m'.NoEmpty)
    (h : ∀ k t, m.lookup k t = m'.lookup k t) : m = m' := by
  apply ExtTreeMap.ext_getElem?
  intro k
  have hnone : m[k]? = none ↔ m'[k]? = none := by
    simp only [hm.getElem?_eq_none, hm'.getElem?_eq_none, h]
  cases hk : m[k]? with
  | none => exact (hnone.mp hk).symm
  | some =>
    cases hk' : m'[k]? with
    | none => cases (hnone.mpr hk').symm.trans hk
    | some =>
      congr 1
      apply ExtTreeMap.ext_getElem?
      intro t
      rw [← lookup_of_getElem? hk, ← lookup_of_getElem? hk', h]

/-! ## Entries -/

theorem mem_entries :
    (k, t, v) ∈ m.entries ↔ m.lookup k t = some v := by
  simp only [entries, List.mem_flatMap, List.mem_map, Prod.exists, Prod.mk.injEq,
    ExtTreeMap.mem_toList_iff_getElem?_eq_some, lookup, Option.bind_eq_some_iff]
  constructor
  · rintro ⟨k', versions, hk, t', v', hv, rfl, rfl, rfl⟩
    exact ⟨versions, hk, hv⟩
  · rintro ⟨versions, hk, hv⟩
    exact ⟨k, versions, hk, t, v, hv, rfl, rfl, rfl⟩

omit [LawfulEqOrd τ] in
theorem nodup_entries (m : VersionMap κ τ β) : (m.entries.map fun e => (e.1, e.2.1)).Nodup := by
  rw [entries, List.map_flatMap]
  rw [List.nodup_flatMap]
  refine ⟨?_, ?_⟩
  · intro e _
    rw [List.map_map]
    have h := OrderedMap.nodup_keys e.2
    rw [List.Nodup, List.pairwise_map] at h ⊢
    exact h.imp fun hab heq => hab (Prod.mk.inj heq).2
  · refine m.distinct_keys_toList.imp ?_
    intro a b hab x hxa hxb
    simp only [List.map_map, List.mem_map, Function.comp] at hxa hxb
    obtain ⟨p, _, rfl⟩ := hxa
    obtain ⟨q, _, hq⟩ := hxb
    exact hab (by simp [(Prod.mk.inj hq).1])

/-- Store a list of entries, first to last. -/
def insertEntries (m : VersionMap κ τ β) (l : List (κ × τ × β)) : VersionMap κ τ β :=
  l.foldl (fun acc e => acc.insertVersion e.1 e.2.1 e.2.2) m

omit [LawfulEqOrd τ] in
theorem NoEmpty.insertEntries (hm : m.NoEmpty)
    (l : List (κ × τ × β)) : (m.insertEntries l).NoEmpty := by
  induction l generalizing m with
  | nil => exact hm
  | cons e l ih => exact ih (hm.insertVersion e.1 e.2.1 e.2.2)

theorem lookup_insertEntries_of_not_mem (h : ∀ v, (k, t, v) ∉ l) (m : VersionMap κ τ β) :
    (m.insertEntries l).lookup k t = m.lookup k t := by
  classical
  induction l generalizing m with
  | nil => rfl
  | cons e l ih =>
    have hl : ∀ v, (k, t, v) ∉ l := fun v hv => h v (List.mem_cons_of_mem _ hv)
    have he : ¬(e.1 = k ∧ e.2.1 = t) := by
      rintro ⟨rfl, rfl⟩
      exact h e.2.2 (by simp)
    exact (ih hl _).trans (by rw [lookup_insertVersion, if_neg he])

theorem lookup_insertEntries_of_mem (hl : (l.map fun e => (e.1, e.2.1)).Nodup) (h : (k, t, v) ∈ l)
    (m : VersionMap κ τ β) : (m.insertEntries l).lookup k t = some v := by
  classical
  induction l generalizing m with
  | nil => cases h
  | cons e l ih =>
    rw [List.map_cons, List.nodup_cons] at hl
    rcases List.mem_cons.mp h with rfl | h
    · have hfresh : ∀ v', (k, t, v') ∉ l := fun v' hv' =>
        hl.1 (List.mem_map.mpr ⟨_, hv', rfl⟩)
      exact (lookup_insertEntries_of_not_mem hfresh _).trans (by rw [lookup_insertVersion]; simp)
    · exact ih hl.2 h _

theorem NoEmpty.insertEntries_entries (hm : m.NoEmpty) :
    (∅ : VersionMap κ τ β).insertEntries m.entries = m := by
  apply NoEmpty.ext (noEmpty_empty.insertEntries _) hm
  intro k t
  cases h : m.lookup k t with
  | some => exact lookup_insertEntries_of_mem m.nodup_entries (mem_entries.mpr h) _
  | none =>
    rw [lookup_insertEntries_of_not_mem, lookup_empty]
    intro v hv
    rw [mem_entries, h] at hv
    cases hv

theorem NoEmpty.collect_entries {γ ε κ τ β : Type} [Ord κ] [TransOrd κ] [LawfulEqOrd κ]
    [Ord τ] [TransOrd τ] [LawfulEqOrd τ] {entry : γ → Except ε (κ × τ × β)}
    {duplicate : κ × τ × β → ε} {l : List γ} {m : VersionMap κ τ β} (hm : m.NoEmpty)
    (h : List.Forall₂ (fun x e => entry x = .ok e) l m.entries) :
    Checked.collect entry (fun (m : VersionMap κ τ β) e => (m.lookup e.1 e.2.1).isSome)
      (fun m e => m.insertVersion e.1 e.2.1 e.2.2) duplicate l ∅ = .ok m := by
  classical
  have hpresent : ∀ (m : VersionMap κ τ β) (e e' : κ × τ × β),
      ((m.insertVersion e.1 e.2.1 e.2.2).lookup e'.1 e'.2.1).isSome = true ↔
        (e.1, e.2.1) = (e'.1, e'.2.1) ∨ (m.lookup e'.1 e'.2.1).isSome = true := by
    intro m e e'
    rw [lookup_insertVersion, Prod.mk.injEq]
    split <;> simp_all
  exact (Checked.collect_eq_ok hpresent).mpr ⟨m.entries, Checked.mapM_eq_ok.mpr h, m.nodup_entries,
    by simp, hm.insertEntries_entries.symm⟩

/-- What every checked entry has, every version of the collected map has, and no key is without
versions. -/
theorem of_collect {γ ε κ τ β : Type} [Ord κ] [TransOrd κ] [LawfulEqOrd κ] [Ord τ] [TransOrd τ]
    [LawfulEqOrd τ] {entry : γ → Except ε (κ × τ × β)} {duplicate : κ × τ × β → ε} {l : List γ}
    {m : VersionMap κ τ β} {P : κ → τ → β → Prop}
    (hentry : ∀ x e, entry x = .ok e → P e.1 e.2.1 e.2.2)
    (h : Checked.collect entry (fun (m : VersionMap κ τ β) e => (m.lookup e.1 e.2.1).isSome)
      (fun m e => m.insertVersion e.1 e.2.1 e.2.2) duplicate l ∅ = .ok m) :
    m.NoEmpty ∧ ∀ k t v, m.lookup k t = some v → P k t v := by
  classical
  refine Checked.foldlM_ok (P := fun _ m => NoEmpty m ∧ ∀ k t v, lookup m k t = some v → P k t v)
    ?_ ⟨noEmpty_empty, by simp⟩ h
  intro _ x acc acc' ⟨hne, hacc⟩ hstep
  simp only [Checked.bind_eq_ok, Checked.pure_eq_ok] at hstep
  obtain ⟨e, he, _, -, rfl⟩ := hstep
  refine ⟨hne.insertVersion _ _ _, fun k t v hv => ?_⟩
  rw [lookup_insertVersion] at hv
  split at hv
  · next heq =>
      obtain ⟨rfl, rfl⟩ := heq
      cases hv
      exact hentry x e he
  · exact hacc k t v hv

end VersionMap
