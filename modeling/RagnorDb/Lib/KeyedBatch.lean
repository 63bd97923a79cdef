import Mathlib.Data.List.Perm.Basic
import RagnorDb.Lib.Checked

/-!
# Batches over separate places

A batch first prepares a delta for each of its elements against one state, and then applies the
deltas.  Where an element is prepared from what the state holds at its own place and a delta changes
that place only, the batch does the same as its elements one after another in any order, each
prepared against the state that it finds.
-/

namespace Checked

universe u

variable {σ κ υ γ δ ε : Type u}

/-- Deltas that are prepared and applied place by place. -/
structure Keywise (view : σ → κ → υ) (place : γ → κ) (key : δ → κ)
    (prepare : σ → γ → Except ε (Option δ)) (apply : σ → δ → σ) : Prop where
  ext : ∀ {s s' : σ}, (∀ k, view s k = view s' k) → s = s'
  prepare_congr : ∀ {s s' : σ} {a : γ}, view s (place a) = view s' (place a) →
    prepare s a = prepare s' a
  key_eq : ∀ {s : σ} {a : γ} {d : δ}, prepare s a = .ok (some d) → key d = place a
  frame : ∀ {s : σ} {d : δ} {k : κ}, key d ≠ k → view (apply s d) k = view s k
  apply_congr : ∀ {s s' : σ} {d : δ}, view s (key d) = view s' (key d) →
    view (apply s d) (key d) = view (apply s' d) (key d)

namespace Keywise

/-- One element of a batch on its own. -/
def one (prepare : σ → γ → Except ε (Option δ)) (apply : σ → δ → σ) (s : σ) (a : γ) :
    Except ε σ := do
  let delta ← prepare s a
  return delta.toList.foldl apply s

variable {view : σ → κ → υ} {place : γ → κ} {key : δ → κ}
  {prepare : σ → γ → Except ε (Option δ)} {apply : σ → δ → σ}

theorem eq_ok_join {x : Except ε (Option δ)} (h : ∃ o, x = .ok o) : x = .ok x.toOption.join := by
  obtain ⟨o, rfl⟩ := h
  rfl

section

variable (h : Keywise view place key prepare apply)
include h

variable {ds : List δ}

theorem view_foldl_of_notMem {k : κ} (hk : ∀ d ∈ ds, key d ≠ k) (s : σ) :
    view (ds.foldl apply s) k = view s k := by
  induction ds generalizing s with
  | nil => rfl
  | cons d ds ih =>
    obtain ⟨hd, hds⟩ := List.forall_mem_cons.mp hk
    rw [List.foldl_cons, ih hds, h.frame hd]

theorem view_foldl_of_mem (hds : (ds.map key).Nodup) {d : δ} (hd : d ∈ ds) (s : σ) :
    view (ds.foldl apply s) (key d) = view (apply s d) (key d) := by
  induction ds generalizing s with
  | nil => cases hd
  | cons e ds ih =>
    rw [List.map_cons, List.nodup_cons] at hds
    rw [List.foldl_cons]
    rcases List.mem_cons.mp hd with rfl | hd
    · refine h.view_foldl_of_notMem ?_ _
      intro e he hkey
      exact hds.1 (List.mem_map.mpr ⟨e, he, hkey⟩)
    · have hne : key e ≠ key d := by
        intro hkey
        exact hds.1 (List.mem_map.mpr ⟨d, hd, hkey.symm⟩)
      rw [ih hds.2 hd, h.apply_congr (h.frame hne)]

theorem foldl_perm {ds' : List δ} (hds : (ds.map key).Nodup) (hperm : ds'.Perm ds) (s : σ) :
    ds'.foldl apply s = ds.foldl apply s := by
  refine h.ext fun k => ?_
  have hds' : (ds'.map key).Nodup := (hperm.map key).nodup_iff.mpr hds
  by_cases hk : ∃ d ∈ ds, key d = k
  · obtain ⟨d, hd, rfl⟩ := hk
    rw [h.view_foldl_of_mem hds hd, h.view_foldl_of_mem hds' (hperm.mem_iff.mpr hd)]
  · push Not at hk
    rw [h.view_foldl_of_notMem hk,
      h.view_foldl_of_notMem fun d hd => hk d (hperm.mem_iff.mp hd)]

variable {delta : γ → Option δ} {l : List γ} {s : σ}

section

variable (hl : (l.map place).Nodup)
include hl

theorem nodup_filterMap (hdelta : ∀ a ∈ l, prepare s a = .ok (delta a)) :
    ((l.filterMap delta).map key).Nodup := by
  rw [List.Nodup, List.pairwise_map] at hl ⊢
  rw [List.pairwise_filterMap]
  refine hl.imp_of_mem ?_
  intro a b ha hb hne d hd e he
  rw [h.key_eq ((hdelta a ha).trans (congrArg _ hd)),
    h.key_eq ((hdelta b hb).trans (congrArg _ he))]
  exact hne

/-- Element after element, the batch reaches the state that its deltas reach together. -/
theorem foldlM_one (hdelta : ∀ a ∈ l, prepare s a = .ok (delta a)) :
    l.foldlM (one prepare apply) s = .ok ((l.filterMap delta).foldl apply s) := by
  induction l generalizing s with
  | nil => rfl
  | cons a l ih =>
    rw [List.map_cons, List.nodup_cons] at hl
    obtain ⟨ha, hrest⟩ := List.forall_mem_cons.mp hdelta
    have hstep : one prepare apply s a = .ok ((delta a).toList.foldl apply s) := by
      rw [one, ha]
      rfl
    have hkept : ∀ b ∈ l, prepare ((delta a).toList.foldl apply s) b = .ok (delta b) := by
      intro b hb
      rw [← hrest b hb]
      refine h.prepare_congr (h.view_foldl_of_notMem ?_ s)
      intro d hd hkey
      have hplace := h.key_eq (ha.trans (congrArg _ (Option.mem_toList.mp hd)))
      exact hl.1 (List.mem_map.mpr ⟨b, hb, hkey.symm.trans hplace⟩)
    rw [List.foldlM_cons, hstep]
    refine (ih hl.2 hkept).trans ?_
    cases hd : delta a <;> simp [hd]

theorem foldlM_one_of_perm {l' : List γ} (hds : l.filterMapM (prepare s) = .ok ds)
    (hperm : l'.Perm l) : l'.foldlM (one prepare apply) s = .ok (ds.foldl apply s) := by
  obtain ⟨hok, rfl⟩ := filterMapM_eq_ok.mp hds
  have hdelta := fun a ha => eq_ok_join (hok a ha)
  have hl' : (l'.map place).Nodup := (hperm.map place).nodup_iff.mpr hl
  rw [h.foldlM_one hl' fun a ha => hdelta a (hperm.mem_iff.mp ha),
    h.foldl_perm (h.nodup_filterMap hl hdelta) (hperm.filterMap _)]

/-- Where every element finds its own delta in place, an accepted batch that is made again
prepares nothing. -/
theorem filterMapM_again
    (hagain : ∀ a ∈ l, ∀ o, prepare s a = .ok o → prepare (o.toList.foldl apply s) a = .ok none)
    (hds : l.filterMapM (prepare s) = .ok ds) :
    l.filterMapM (prepare (ds.foldl apply s)) = .ok [] := by
  obtain ⟨hok, rfl⟩ := filterMapM_eq_ok.mp hds
  have hdelta := fun a ha => eq_ok_join (hok a ha)
  have hnone : ∀ a ∈ l, prepare
      ((l.filterMap fun a => (prepare s a).toOption.join).foldl apply s) a = .ok none := by
    intro a ha
    rw [← hagain a ha _ (hdelta a ha)]
    refine h.prepare_congr ?_
    cases ho : (prepare s a).toOption.join with
    | some d =>
      have hmem : d ∈ l.filterMap fun a => (prepare s a).toOption.join :=
        List.mem_filterMap.mpr ⟨a, ha, ho⟩
      have hkey := h.key_eq ((hdelta a ha).trans (congrArg _ ho))
      rw [← hkey]
      exact h.view_foldl_of_mem (h.nodup_filterMap hl hdelta) hmem s
    | none =>
      refine h.view_foldl_of_notMem ?_ s
      intro d hd hkey
      obtain ⟨b, hb, hd⟩ := List.mem_filterMap.mp hd
      have hplace := h.key_eq ((hdelta b hb).trans (congrArg _ hd))
      cases List.inj_on_of_nodup_map hl hb ha (hplace.symm.trans hkey)
      cases ho.symm.trans hd
  refine filterMapM_eq_ok.mpr ⟨fun a ha => ⟨none, hnone a ha⟩, Eq.symm ?_⟩
  refine List.filterMap_eq_nil_iff.mpr fun a ha => ?_
  rw [hnone a ha]
  rfl

end

end

end Keywise

end Checked
