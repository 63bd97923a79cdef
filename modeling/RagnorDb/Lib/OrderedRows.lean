import RagnorDb.Lib.IndexedMap

/-!
# Ordered readings of a partial function

A list of entries reads a partial function over a region of its keys if it holds exactly the
entries of that region, in increasing key order.  Two ordered lists are merged by taking the least
key of both.
-/

open Std Checked

universe u v

namespace OrderedRows

variable {κ : Type u} {β : Type v} {cmp : κ → κ → Ordering} {f : κ → Option β} {p : κ → Prop}
  {rows : List (κ × β)}

/-- The entries of `f` with a key in the region, in key order. -/
structure Reads (cmp : κ → κ → Ordering) (f : κ → Option β) (region : κ → Prop)
    (rows : List (κ × β)) : Prop where
  sorted : rows.Pairwise fun a b => cmp a.1 b.1 = .lt
  mem : ∀ k v, (k, v) ∈ rows ↔ region k ∧ f k = some v

theorem Reads.nil (h : ∀ k, p k → f k = none) : Reads cmp f p [] := by
  refine ⟨.nil, ?_⟩
  intro k v
  simp only [List.not_mem_nil, false_iff, not_and]
  intro hk hv
  rw [h k hk] at hv
  cases hv

section

variable [TransCmp cmp]

theorem cmp_lt_irrefl {a : κ} : ¬ cmp a a = .lt := by
  simp [ReflCmp.compare_self]

theorem Reads.nodup (h : Reads cmp f p rows) : (rows.map Prod.fst).Nodup := by
  rw [List.nodup_iff_pairwise_ne, List.pairwise_map]
  refine h.sorted.imp ?_
  intro a b hlt heq
  rw [heq] at hlt
  exact cmp_lt_irrefl hlt

theorem isLE_getLast (hsorted : rows.Pairwise fun a b => cmp a.1 b.1 = .lt) {e : κ × β}
    (hmem : e ∈ rows) {last : κ × β} (hlast : rows.getLast? = some last) :
    (cmp e.1 last.1).isLE := by
  obtain ⟨earlier, rfl⟩ := List.getLast?_eq_some_iff.mp hlast
  rcases List.mem_append.mp hmem with hearlier | hsame
  · have hlt := (List.pairwise_append.mp hsorted).2.2 e hearlier last (List.mem_singleton.mpr rfl)
    simp [hlt]
  · rw [List.mem_singleton.mp hsame]
    simp [ReflCmp.compare_self]

end

theorem pairwise_of_forall₂ {α α' : Type u} {R : α → α' → Prop} {r : α → α → Prop}
    {r' : α' → α' → Prop} (hstep : ∀ {a b a' b'}, R a a' → R b b' → r a b → r' a' b')
    {l : List α} {l' : List α'} (h : List.Forall₂ R l l') (hl : l.Pairwise r) : l'.Pairwise r' := by
  induction h with
  | nil => exact .nil
  | @cons a a' l l' ha h ih =>
    obtain ⟨hhead, htail⟩ := List.pairwise_cons.mp hl
    refine List.pairwise_cons.mpr ⟨?_, ih htail⟩
    intro b' hb'
    obtain ⟨b, hb, hrel⟩ := exists_of_mem_forall₂ h.flip hb'
    exact hstep ha hrel (hhead b hb)

/-! ## Merging two ordered lists of entries -/

section Merge

variable {α : Type v}

/-- The least key of two ordered lists, the entries with that key, and what remains. -/
def mergeNext (cmp : κ → κ → Ordering) :
    List (κ × α) → List (κ × β) → Option (κ × Option α × Option β × List (κ × α) × List (κ × β))
  | [], [] => none
  | (k, a) :: left, [] => some (k, some a, none, left, [])
  | [], (k, b) :: right => some (k, none, some b, [], right)
  | (k, a) :: left, (k', b) :: right =>
    match cmp k k' with
    | .lt => some (k, some a, none, left, (k', b) :: right)
    | .eq => some (k, some a, some b, left, right)
    | .gt => some (k', none, some b, (k, a) :: left, right)

theorem length_mergeNext {left left' : List (κ × α)} {right right' : List (κ × β)} {k : κ}
    {a : Option α} {b : Option β}
    (h : mergeNext cmp left right = some (k, a, b, left', right')) :
    left'.length + right'.length < left.length + right.length := by
  match left, right with
  | [], [] => cases h
  | (_, _) :: _, [] | [], (_, _) :: _ =>
    cases h
    simp
  | (_, _) :: _, (_, _) :: _ =>
    simp only [mergeNext] at h
    split at h <;> cases h <;> simp only [List.length_cons] <;> omega

end Merge

end OrderedRows
