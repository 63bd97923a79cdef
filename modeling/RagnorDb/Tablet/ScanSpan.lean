import RagnorDb.Common.Basic
import RagnorDb.Lib.OrderedMap
import RagnorDb.Lib.Position

/-!
# Scan spans and scan progress

`ScanSpan` and `ScanProgress` of `router.rs`: the half-open spans of primary keys that a
distributed scan still has to read.  A span is an interval of positions.  Completing a span succeeds
if and only if all of its positions are outstanding, and takes exactly those away.
-/

namespace RagnorDb

open Std Checked OrderedMap

/-- A logical half-open key span; an absent bound is unbounded. -/
structure ScanSpan where
  startKey : Option Bytes
  endKey : Option Bytes
  deriving DecidableEq

namespace ScanSpan

def unbounded : ScanSpan := ⟨none, none⟩

def validate (span : ScanSpan) : Except Error Unit :=
  match span.startKey, span.endKey with
  | some startKey, some endKey =>
    rejectIf (compare startKey endKey ≠ .lt)
      (.invalidArgument "logical scan span must be a non-empty half-open interval")
  | _, _ => .ok ()

/-- The derived order of `ScanSpan`. -/
def cmp : ScanSpan → ScanSpan → Ordering :=
  compareLex (compareOn startKey) (compareOn endKey)

instance : TransCmp cmp :=
  inferInstanceAs (TransCmp (compareLex (compareOn startKey) (compareOn endKey)))

instance : LawfulEqCmp cmp where
  eq_of_compare {a b} h := by
    obtain ⟨hstart, hend⟩ := Ordering.then_eq_eq.mp h
    cases a
    cases b
    rw [mk.injEq]
    exact ⟨LawfulEqCmp.eq_of_compare hstart, LawfulEqCmp.eq_of_compare hend⟩

end ScanSpan

def spansIntersect (left right : ScanSpan) : Bool :=
  let leftStartsBeforeRightEnd := right.endKey.all fun rightEnd =>
    left.startKey.all fun leftStart => compare leftStart rightEnd == .lt
  let leftEndsAfterRightStart := right.startKey.all fun rightStart =>
    left.endKey.all fun leftEnd => compare leftEnd rightStart == .gt
  leftStartsBeforeRightEnd && leftEndsAfterRightStart

/-- The parts of a span before and behind a covered one.  Both are non-empty, so the `expect` of
the source holds. -/
def subtractSpan (span covered : ScanSpan) : List ScanSpan :=
  if spansIntersect span covered then
    let left := covered.startKey.toList.filterMap fun coveredStart =>
      if span.startKey.all fun spanStart => compare spanStart coveredStart == .lt then
        some (ScanSpan.mk span.startKey (some coveredStart))
      else none
    let right := covered.endKey.toList.filterMap fun coveredEnd =>
      if span.endKey.all fun spanEnd => compare coveredEnd spanEnd == .lt then
        some (ScanSpan.mk (some coveredEnd) span.endKey)
      else none
    left ++ right
  else [span]

/-- Stable progress of a distributed scan at one timestamp. -/
structure ScanProgress where
  readTs : Timestamp
  completed : ExtTreeSet ScanSpan ScanSpan.cmp
  remaining : ExtTreeSet ScanSpan ScanSpan.cmp

namespace ScanProgress

def new (readTs : Timestamp) (span : ScanSpan) : ScanProgress :=
  ⟨readTs, ∅, ExtTreeSet.insert ∅ span⟩

/-- The pieces of a span that no span of a list covers. -/
def uncovered (completed : ScanSpan) (existing : List ScanSpan) : List ScanSpan :=
  existing.foldl (fun pieces span => pieces.flatMap (subtractSpan · span)) [completed]

/-- Replace one outstanding span by what a completed one leaves of it. -/
def retire (completed : ScanSpan) (remaining : ExtTreeSet ScanSpan ScanSpan.cmp)
    (span : ScanSpan) : ExtTreeSet ScanSpan ScanSpan.cmp :=
  if spansIntersect span completed then
    (subtractSpan span completed).foldl ExtTreeSet.insert (remaining.erase span)
  else remaining

/-- Mark one wholly successful subspan as complete. -/
def markCompleted (completed : ScanSpan) : EStateM Error ScanProgress Unit := do
  completed.validate
  let existing := (← get).remaining.toList
  rejectIf (uncovered completed existing ≠ [])
    (Error.invalidArgument "scan progress can complete only an outstanding logical span")
  modify fun progress =>
    { progress with remaining := existing.foldl (retire completed) progress.remaining }
  modify fun progress => { progress with completed := progress.completed.insert completed }

/-- `mark_completed` on a progress of the caller, which passes an error on. -/
def marked (progress : ScanProgress) (completed : ScanSpan) : Except Error ScanProgress :=
  match (markCompleted completed).run progress with
  | .ok _ next => .ok next
  | .error error _ => .error error

end ScanProgress

/-! ## Spans as intervals of positions -/

namespace ScanSpan

variable {k : Bytes} {start stop : Option Bytes} {spans : List ScanSpan}

def lower (span : ScanSpan) : Position (compare : Bytes → Bytes → Ordering) :=
  .lower span.startKey

def upper (span : ScanSpan) : Position (compare : Bytes → Bytes → Ordering) :=
  .upper span.endKey

def points (span : ScanSpan) : Set (Position (compare : Bytes → Bytes → Ordering)) :=
  Set.Ico span.lower span.upper

instance (span : ScanSpan) : DecidablePred (· ∈ span.points) := fun p =>
  inferInstanceAs (Decidable (span.lower ≤ p ∧ p < span.upper))

variable {span covered piece left right : ScanSpan}
  {p : Position (compare : Bytes → Bytes → Ordering)}

theorem lower_of_startKey (h : span.startKey = some k) : span.lower = .key k := by
  rw [lower, h]
  rfl

theorem upper_of_endKey (h : span.endKey = some k) : span.upper = .key k := by
  rw [upper, h]
  rfl

theorem exists_startKey_of_lt (h : p < span.lower) : ∃ k, span.startKey = some k := by
  cases hstart : span.startKey with
  | none =>
    rw [lower, hstart] at h
    exact absurd h Position.bottom_le.not_gt
  | some k => exact ⟨k, rfl⟩

theorem exists_endKey_of_le (h : span.upper ≤ p) (hp : p < .top) : ∃ k, span.endKey = some k := by
  cases hend : span.endKey with
  | none =>
    rw [upper, hend] at h
    exact absurd hp h.not_gt
  | some k => exact ⟨k, rfl⟩

theorem validate_eq_ok : span.validate = .ok () ↔ span.lower < span.upper := by
  obtain ⟨_ | startKey, _ | endKey⟩ := span <;>
    simp [validate, lower, upper, Position.lower, Position.upper]

theorem spansIntersect_iff :
    spansIntersect left right = true ↔ left.lower < right.upper ∧ right.lower < left.upper := by
  obtain ⟨_ | leftStart, _ | leftEnd⟩ := left <;> obtain ⟨_ | rightStart, _ | rightEnd⟩ := right <;>
    simp [spansIntersect, lower, upper, Position.lower, Position.upper, OrientedCmp.gt_iff_lt]

theorem mem_subtractSpan (h : spansIntersect span covered = true) :
    piece ∈ subtractSpan span covered ↔
      (∃ k, covered.startKey = some k ∧ span.lower < .key k ∧ piece = ⟨span.startKey, some k⟩) ∨
      (∃ k, covered.endKey = some k ∧ .key k < span.upper ∧ piece = ⟨some k, span.endKey⟩) := by
  have hstart : ∀ k, (span.startKey.all fun start => compare start k == .lt) = true ↔
      span.lower < .key k := by
    intro k
    cases hspan : span.startKey <;> simp [lower, Position.lower, hspan]
  have hend : ∀ k, (span.endKey.all fun stop => compare k stop == .lt) = true ↔
      .key k < span.upper := by
    intro k
    cases hspan : span.endKey <;> simp [upper, Position.upper, hspan]
  rw [subtractSpan, if_pos h, List.mem_append, List.mem_filterMap, List.mem_filterMap]
  simp [hstart, hend, eq_comm (b := piece)]

/-- Subtraction leaves the positions outside of the covered span. -/
theorem exists_mem_subtractSpan : (∃ piece ∈ subtractSpan span covered, p ∈ piece.points) ↔
    p ∈ span.points ∧ p ∉ covered.points := by
  cases h : spansIntersect span covered with
  | true =>
    obtain ⟨hlower, hupper⟩ := spansIntersect_iff.mp h
    rw [points, points, Intervals.mem_Ico_and_notMem_Ico hlower hupper]
    simp only [mem_subtractSpan h, or_and_right, exists_or]
    refine or_congr ?_ ?_
    · constructor
      · rintro ⟨_, ⟨k, hk, _, rfl⟩, hp⟩
        rwa [lower_of_startKey hk]
      · intro hp
        obtain ⟨k, hk⟩ := exists_startKey_of_lt hp.2
        rw [lower_of_startKey hk] at hp
        exact ⟨_, ⟨k, hk, hp.1.trans_lt hp.2, rfl⟩, hp⟩
    · constructor
      · rintro ⟨_, ⟨k, hk, _, rfl⟩, hp⟩
        rwa [upper_of_endKey hk]
      · intro hp
        obtain ⟨k, hk⟩ := exists_endKey_of_le hp.1 (hp.2.trans_le Position.le_top)
        rw [upper_of_endKey hk] at hp
        exact ⟨_, ⟨k, hk, hp.1.trans_lt hp.2, rfl⟩, hp⟩
  | false =>
    simp only [subtractSpan, h, Bool.false_eq_true, if_false, List.mem_singleton, exists_eq_left]
    refine (and_iff_left_of_imp ?_).symm
    intro hp hcovered
    have hmeet : spansIntersect span covered = true :=
      spansIntersect_iff.mpr ⟨hp.1.trans_lt hcovered.2, hcovered.1.trans_lt hp.2⟩
    rw [h] at hmeet
    cases hmeet

theorem lower_lt_upper_of_spansIntersect (h : spansIntersect span covered = true)
    (hpiece : piece ∈ subtractSpan span covered) : piece.lower < piece.upper := by
  rcases (mem_subtractSpan h).mp hpiece with ⟨k, _, hlt, rfl⟩ | ⟨k, _, hlt, rfl⟩
  · exact hlt
  · exact hlt

theorem lower_lt_upper_of_mem_subtractSpan (hspan : span.lower < span.upper)
    (hpiece : piece ∈ subtractSpan span covered) : piece.lower < piece.upper := by
  cases h : spansIntersect span covered with
  | true => exact lower_lt_upper_of_spansIntersect h hpiece
  | false =>
    simp only [subtractSpan, h, Bool.false_eq_true, if_false, List.mem_singleton] at hpiece
    rwa [hpiece]

theorem not_spansIntersect_of_mem_subtractSpan (h : spansIntersect span covered = true)
    (hpiece : piece ∈ subtractSpan span covered) : spansIntersect piece covered = false := by
  rw [Bool.eq_false_iff, Ne, spansIntersect_iff]
  rcases (mem_subtractSpan h).mp hpiece with ⟨k, hk, _, rfl⟩ | ⟨k, hk, _, rfl⟩
  · rintro ⟨_, hlt⟩
    rw [lower_of_startKey hk] at hlt
    exact lt_irrefl _ hlt
  · rintro ⟨hlt, _⟩
    rw [upper_of_endKey hk] at hlt
    exact lt_irrefl _ hlt

/-- The remainders of a span have no position in common. -/
theorem eq_of_mem_subtractSpan (hcovered : covered.lower < covered.upper)
    (ha : left ∈ subtractSpan span covered) (hb : right ∈ subtractSpan span covered)
    (hpa : p ∈ left.points) (hpb : p ∈ right.points) : left = right := by
  have hnot : ¬ (p < covered.lower ∧ covered.upper ≤ p) := fun h =>
    absurd (h.1.trans hcovered) h.2.not_gt
  cases h : spansIntersect span covered with
  | true =>
    have hside : ∀ piece ∈ subtractSpan span covered, p ∈ piece.points →
        (p < covered.lower ∧ piece = ⟨span.startKey, covered.startKey⟩) ∨
          (covered.upper ≤ p ∧ piece = ⟨covered.endKey, span.endKey⟩) := by
      intro piece hpiece hp
      rcases (mem_subtractSpan h).mp hpiece with ⟨k, hk, _, rfl⟩ | ⟨k, hk, _, rfl⟩
      · exact .inl ⟨lower_of_startKey hk ▸ hp.2, by rw [hk]⟩
      · exact .inr ⟨upper_of_endKey hk ▸ hp.1, by rw [hk]⟩
    rcases hside left ha hpa with ⟨hl, rfl⟩ | ⟨hl, rfl⟩ <;>
      rcases hside right hb hpb with ⟨hr, rfl⟩ | ⟨hr, rfl⟩
    · rfl
    · exact absurd ⟨hl, hr⟩ hnot
    · exact absurd ⟨hr, hl⟩ hnot
    · rfl
  | false =>
    simp only [subtractSpan, h, Bool.false_eq_true, if_false, List.mem_singleton] at ha hb
    exact ha.trans hb.symm

theorem lower_le_of_cmp (h : cmp left right = .lt) : left.lower ≤ right.lower := by
  have hstart : compare left.startKey right.startKey ≠ .gt := by
    intro hgt
    rcases Ordering.then_eq_lt.mp h with hlt | ⟨heq, _⟩
    · cases hlt.symm.trans hgt
    · cases heq.symm.trans hgt
  obtain ⟨_ | leftStart, leftEnd⟩ := left <;> obtain ⟨_ | rightStart, rightEnd⟩ := right
  · exact le_rfl
  · exact Position.bottom_le
  · exact absurd rfl hstart
  · exact Ordering.isLE_iff_ne_gt.mpr hstart

theorem key_mem_points : .key k ∈ span.points ↔
    (∀ startKey ∈ span.startKey, (compare startKey k).isLE = true) ∧
      ∀ endKey ∈ span.endKey, compare k endKey = .lt := by
  obtain ⟨_ | startKey, _ | endKey⟩ := span <;>
    simp [points, lower, upper, Position.lower, Position.upper]

/-! ## Adjacent spans -/

/-- Spans that follow each other without a gap, up to a bound. -/
inductive Adjacent (stop : Option Bytes) : Option Bytes → List ScanSpan → Prop
  | last {start : Option Bytes} : Adjacent stop start [⟨start, stop⟩]
  | cons {start : Option Bytes} {k : Bytes} {spans : List ScanSpan} :
      Adjacent stop (some k) spans → Adjacent stop start (⟨start, some k⟩ :: spans)

section

variable (h : Adjacent stop start spans) (hvalid : ∀ span ∈ spans, span.lower < span.upper)
include h hvalid

theorem Adjacent.lower_lt_upper :
    (mk start stop).lower < (mk start stop).upper := by
  induction h with
  | last => exact hvalid _ List.mem_cons_self
  | cons _ ih =>
    obtain ⟨hfirst, hrest⟩ := List.forall_mem_cons.mp hvalid
    exact hfirst.trans (ih hrest)

theorem Adjacent.countP_mem :
    spans.countP (fun span => p ∈ span.points) = if p ∈ (mk start stop).points then 1 else 0 := by
  induction h with
  | last => simp [List.countP_cons]
  | @cons start k spans hadjacent ih =>
    obtain ⟨hfirst, hrest⟩ := List.forall_mem_cons.mp hvalid
    have hbelow : (Position.lower start : Position (compare : Bytes → Bytes → Ordering)) < .key k :=
      hfirst
    have habove : .key k < (Position.upper stop : Position (compare : Bytes → Bytes → Ordering)) :=
      hadjacent.lower_lt_upper hrest
    rw [List.countP_cons, ih hrest]
    simp only [points, lower, upper, Position.lower, Position.upper, Option.elim_some, Set.mem_Ico,
      decide_eq_true_eq] at hbelow habove ⊢
    by_cases hk : p < .key k
    · simp [hk, hk.trans habove, hk.not_ge]
    · simp [hk, Std.not_lt.mp hk, hbelow.le.trans (Std.not_lt.mp hk)]

end

end ScanSpan

/-! ## What completing a span does -/

namespace ScanProgress

variable {progress next : ScanProgress} {completed span other : ScanSpan} {existing : List ScanSpan}
  {p : Position (compare : Bytes → Bytes → Ordering)} {readTs : Timestamp}
  {remaining : ExtTreeSet ScanSpan ScanSpan.cmp}

/-- A position that no completed span has taken yet. -/
def Outstanding (progress : ScanProgress)
    (p : Position (compare : Bytes → Bytes → Ordering)) : Prop :=
  ∃ span ∈ progress.remaining, p ∈ span.points

/-- Every outstanding span has positions. -/
def WellFormed (progress : ScanProgress) : Prop :=
  ∀ span ∈ progress.remaining, span.lower < span.upper

theorem isEmpty_remaining (h : progress.WellFormed) :
    progress.remaining.isEmpty = true ↔ ∀ p, ¬ progress.Outstanding p := by
  rw [ExtTreeSet.isEmpty_iff, ExtTreeSet.eq_empty_iff_forall_not_mem]
  constructor
  · rintro hempty p ⟨span, hspan, _⟩
    exact hempty span hspan
  · intro hnone span hspan
    exact hnone span.lower ⟨span, hspan, le_rfl, h span hspan⟩

theorem exists_mem_uncovered :
    (∃ piece ∈ uncovered completed existing, p ∈ piece.points) ↔
      p ∈ completed.points ∧ ∀ span ∈ existing, p ∉ span.points := by
  have hfold : ∀ pieces : List ScanSpan,
      (∃ piece ∈ existing.foldl (fun pieces span => pieces.flatMap (subtractSpan · span)) pieces,
        p ∈ piece.points) ↔
      (∃ piece ∈ pieces, p ∈ piece.points) ∧ ∀ span ∈ existing, p ∉ span.points := by
    induction existing with
    | nil => simp
    | cons span existing ih =>
      intro pieces
      rw [List.foldl_cons, ih, List.forall_mem_cons, ← and_assoc]
      refine and_congr_left fun _ => ?_
      simp only [List.mem_flatMap]
      constructor
      · rintro ⟨rest, ⟨piece, hpiece, hrest⟩, hp⟩
        obtain ⟨hp, hspan⟩ := ScanSpan.exists_mem_subtractSpan.mp ⟨rest, hrest, hp⟩
        exact ⟨⟨piece, hpiece, hp⟩, hspan⟩
      · rintro ⟨⟨piece, hpiece, hp⟩, hspan⟩
        obtain ⟨rest, hrest, hp⟩ := ScanSpan.exists_mem_subtractSpan.mpr ⟨hp, hspan⟩
        exact ⟨rest, ⟨piece, hpiece, hrest⟩, hp⟩
  simp [uncovered, hfold]

theorem lower_lt_upper_of_mem_uncovered (h : completed.lower < completed.upper) :
    ∀ piece ∈ uncovered completed existing, piece.lower < piece.upper := by
  refine List.foldlRecOn (motive := fun pieces : List ScanSpan =>
      ∀ piece ∈ pieces, piece.lower < piece.upper)
    existing _ (List.forall_mem_singleton.mpr h) ?_
  intro pieces hpieces span _ piece hpiece
  obtain ⟨source, hsource, hpiece⟩ := List.mem_flatMap.mp hpiece
  exact ScanSpan.lower_lt_upper_of_mem_subtractSpan (hpieces source hsource) hpiece

theorem mem_retire :
    other ∈ retire completed remaining span ↔
      (other ∈ remaining ∧ ¬ (other = span ∧ spansIntersect span completed = true)) ∨
      (spansIntersect span completed = true ∧ other ∈ subtractSpan span completed) := by
  cases h : spansIntersect span completed with
  | true =>
    rw [retire, if_pos h, mem_foldl_insert_set, ExtTreeSet.mem_erase, Ne,
      LawfulEqCmp.compare_eq_iff_eq, eq_comm (a := span)]
    tauto
  | false => simp [retire, h]

theorem mem_foldl_retire :
    other ∈ existing.foldl (retire completed) remaining ↔
      (other ∈ remaining ∧ ¬ (other ∈ existing ∧ spansIntersect other completed = true)) ∨
      ∃ span ∈ existing, spansIntersect span completed = true ∧
        other ∈ subtractSpan span completed := by
  induction existing generalizing remaining with
  | nil => simp
  | cons span existing ih =>
    -- A remainder never meets the completed span, so no later step takes it away.
    have hkept : spansIntersect span completed = true → other ∈ subtractSpan span completed →
        spansIntersect other completed = false :=
      ScanSpan.not_spansIntersect_of_mem_subtractSpan
    have hsame : other = span ∧ spansIntersect span completed = true ↔
        other = span ∧ spansIntersect other completed = true :=
      and_congr_right fun heq => by rw [heq]
    rw [List.foldl_cons, ih, mem_retire, List.mem_cons, List.exists_mem_cons_iff, hsame]
    cases hother : spansIntersect other completed with
    | false =>
      simp [or_assoc]
    | true =>
      have hnot : ¬ (spansIntersect span completed = true ∧
          other ∈ subtractSpan span completed) := by
        rintro ⟨hmeets, hmem⟩
        rw [hkept hmeets hmem] at hother
        cases hother
      simp [hnot, and_assoc]

theorem uncovered_eq_nil (h : completed.lower < completed.upper) :
    uncovered completed progress.remaining.toList = [] ↔
      ∀ p ∈ completed.points, progress.Outstanding p := by
  rw [List.eq_nil_iff_forall_not_mem]
  constructor
  · intro hnil p hp
    by_contra hnot
    obtain ⟨piece, hpiece, _⟩ := exists_mem_uncovered.mpr ⟨hp, fun span hspan hmem =>
      hnot ⟨span, ExtTreeSet.mem_toList.mp hspan, hmem⟩⟩
    exact hnil piece hpiece
  · intro houtstanding piece hpiece
    have hlt := lower_lt_upper_of_mem_uncovered h piece hpiece
    obtain ⟨hp, hnone⟩ := exists_mem_uncovered.mp ⟨piece, hpiece, le_rfl, hlt⟩
    obtain ⟨span, hspan, hmem⟩ := houtstanding _ hp
    exact hnone span (ExtTreeSet.mem_toList.mpr hspan) hmem

theorem markCompleted_eq_ok {u : Unit} : (markCompleted completed).run progress = .ok u next ↔
    completed.lower < completed.upper ∧ (∀ p ∈ completed.points, progress.Outstanding p) ∧
    { progress with
        remaining := progress.remaining.toList.foldl (retire completed) progress.remaining
        completed := progress.completed.insert completed } = next := by
  have hmodify : ∀ f g : ScanProgress → ScanProgress,
      (do modify f; modify g : EStateM Error ScanProgress Unit).run progress = .ok u next ↔
        g (f progress) = next := by
    simp
  simp only [markCompleted, lift_bind_run_eq_ok, get_bind_run, hmodify, exists_unit, rejectIf_eq_ok,
    not_not, ScanSpan.validate_eq_ok]
  exact and_congr_right fun hvalid => and_congr_left' (uncovered_eq_nil hvalid)

theorem atomic_markCompleted : Atomic (markCompleted completed) :=
  .lift_bind fun _ => .get_bind fun _ => .lift_bind fun _ =>
    (Atomic.modify _).bind_total fun _ _ => ⟨_, _, rfl⟩

section Completed

variable {u : Unit} (h : (markCompleted completed).run progress = .ok u next)
include h

theorem mem_remaining_of_markCompleted : other ∈ next.remaining ↔
    (other ∈ progress.remaining ∧ spansIntersect other completed = false) ∨
      ∃ span ∈ progress.remaining, spansIntersect span completed = true ∧
        other ∈ subtractSpan span completed := by
  obtain ⟨_, _, rfl⟩ := markCompleted_eq_ok.mp h
  simp only [mem_foldl_retire, ExtTreeSet.mem_toList, not_and, Bool.not_eq_true]
  refine or_congr_left ⟨fun ⟨hmem, hkept⟩ => ⟨hmem, hkept hmem⟩, fun ⟨hmem, hkept⟩ => ?_⟩
  exact ⟨hmem, fun _ => hkept⟩

theorem wellFormed_of_markCompleted (hwf : progress.WellFormed) : next.WellFormed := by
  intro span hspan
  rcases (mem_remaining_of_markCompleted h).mp hspan with ⟨hspan, _⟩ | ⟨source, hsource, _, hspan⟩
  · exact hwf span hspan
  · exact ScanSpan.lower_lt_upper_of_mem_subtractSpan (hwf source hsource) hspan

theorem exists_source_of_markCompleted (hspan : span ∈ next.remaining) (hp : p ∈ span.points) :
    ∃ source ∈ progress.remaining, p ∈ source.points ∧ p ∉ completed.points ∧
      span ∈ subtractSpan source completed := by
  rcases (mem_remaining_of_markCompleted h).mp hspan with ⟨hmem, hkept⟩ | ⟨source, hmem, _, hpiece⟩
  · have hself : span ∈ subtractSpan span completed := by simp [subtractSpan, hkept]
    obtain ⟨_, hcompleted⟩ := ScanSpan.exists_mem_subtractSpan.mp ⟨span, hself, hp⟩
    exact ⟨span, hmem, hp, hcompleted, hself⟩
  · obtain ⟨hp, hcompleted⟩ := ScanSpan.exists_mem_subtractSpan.mp ⟨span, hpiece, hp⟩
    exact ⟨source, hmem, hp, hcompleted, hpiece⟩

theorem outstanding_of_markCompleted :
    next.Outstanding p ↔ progress.Outstanding p ∧ p ∉ completed.points := by
  constructor
  · rintro ⟨span, hspan, hp⟩
    obtain ⟨source, hsource, hp, hcompleted, _⟩ := exists_source_of_markCompleted h hspan hp
    exact ⟨⟨source, hsource, hp⟩, hcompleted⟩
  · rintro ⟨⟨span, hspan, hp⟩, hcompleted⟩
    cases hmeets : spansIntersect span completed with
    | true =>
      obtain ⟨piece, hpiece, hp⟩ := ScanSpan.exists_mem_subtractSpan.mpr ⟨hp, hcompleted⟩
      exact ⟨piece, (mem_remaining_of_markCompleted h).mpr (.inr ⟨span, hspan, hmeets, hpiece⟩), hp⟩
    | false => exact ⟨span, (mem_remaining_of_markCompleted h).mpr (.inl ⟨hspan, hmeets⟩), hp⟩

end Completed

theorem exists_marked (hwf : progress.WellFormed)
    (hvalid : completed.lower < completed.upper)
    (houtstanding : ∀ p ∈ completed.points, progress.Outstanding p) :
    ∃ next, progress.marked completed = .ok next ∧ next.readTs = progress.readTs ∧
      next.WellFormed ∧ ∀ p, next.Outstanding p ↔ progress.Outstanding p ∧
        p ∉ completed.points := by
  have hmarked := (markCompleted_eq_ok (u := ())).mpr ⟨hvalid, houtstanding, rfl⟩
  refine ⟨_, ?_, ?_, wellFormed_of_markCompleted hmarked hwf,
    fun p => outstanding_of_markCompleted hmarked⟩
  · rw [marked, hmarked]
  · rfl

theorem wellFormed_new (h : span.lower < span.upper) : (new readTs span).WellFormed := by
  intro other hother
  rw [new, ExtTreeSet.mem_insert, LawfulEqCmp.compare_eq_iff_eq] at hother
  rcases hother with rfl | hother
  · exact h
  · exact absurd hother ExtTreeSet.not_mem_empty

theorem outstanding_new :
    (new readTs span).Outstanding p ↔ p ∈ span.points := by
  simp only [Outstanding, new, ExtTreeSet.mem_insert, LawfulEqCmp.compare_eq_iff_eq]
  constructor
  · rintro ⟨other, rfl | hother, hp⟩
    · exact hp
    · exact absurd hother ExtTreeSet.not_mem_empty
  · intro hp
    exact ⟨span, .inl rfl, hp⟩

/-! ## Sequences of completions -/

/-- A sequence of `mark_completed` calls: the spans whose call answered `Ok`, and the progress
behind them. -/
def afterCalls (progress : ScanProgress) : List ScanSpan → List ScanSpan × ScanProgress
  | [] => ([], progress)
  | call :: calls =>
    match (markCompleted call).run progress with
    | .ok _ next => ((next.afterCalls calls).map (call :: ·) id)
    | .error _ next => next.afterCalls calls

/-- What holds from the start of a scan of a span, with the spans that were accepted. -/
structure Accounts (initial : ScanSpan) (accepted : List ScanSpan) (progress : ScanProgress) :
    Prop where
  disjoint : ∀ a ∈ progress.remaining, ∀ b ∈ progress.remaining,
    ∀ p ∈ a.points, p ∈ b.points → a = b
  outstanding : ∀ p, progress.Outstanding p ↔
    p ∈ initial.points ∧ ∀ span ∈ accepted, p ∉ span.points
  completed : ∀ span, span ∈ progress.completed ↔ span ∈ accepted
  wellFormed : initial.lower < initial.upper → progress.WellFormed
  unchanged : ¬ initial.lower < initial.upper → progress.remaining = ExtTreeSet.insert ∅ initial

variable {initial : ScanSpan} {accepted : List ScanSpan}

theorem accounts_new : Accounts initial [] (new readTs initial) where
  disjoint a ha b hb _ _ _ := by
    simp only [new, ExtTreeSet.mem_insert, LawfulEqCmp.compare_eq_iff_eq,
      ExtTreeSet.not_mem_empty, or_false] at ha hb
    exact ha.symm.trans hb
  outstanding p := by simp [outstanding_new]
  completed span := by simp [new]
  wellFormed := wellFormed_new
  unchanged _ := rfl

theorem Accounts.markCompleted {u : Unit} (accounts : Accounts initial accepted progress)
    (h : (ScanProgress.markCompleted completed).run progress = .ok u next) :
    Accounts initial (accepted ++ [completed]) next := by
  obtain ⟨hvalid, hall, hnext⟩ := markCompleted_eq_ok.mp h
  refine ⟨fun a ha b hb p hpa hpb => ?_, fun p => ?_, fun span => ?_, fun hinitial => ?_,
    fun hinitial => ?_⟩
  · -- Both are remainders of the one outstanding span that the position is in.
    obtain ⟨source, hsource, hp, hcompleted, ha⟩ := exists_source_of_markCompleted h ha hpa
    obtain ⟨other, hother, hp', _, hb⟩ := exists_source_of_markCompleted h hb hpb
    cases accounts.disjoint source hsource other hother p hp hp'
    exact ScanSpan.eq_of_mem_subtractSpan hvalid ha hb hpa hpb
  · rw [outstanding_of_markCompleted h, accounts.outstanding, and_assoc]
    simp [or_imp, forall_and]
  · subst hnext
    rw [ExtTreeSet.mem_insert, LawfulEqCmp.compare_eq_iff_eq, accounts.completed]
    simp [or_comm, eq_comm]
  · exact wellFormed_of_markCompleted h (accounts.wellFormed hinitial)
  · obtain ⟨hlower, _⟩ := (accounts.outstanding _).mp (hall _ ⟨le_rfl, hvalid⟩)
    exact absurd (hlower.1.trans_lt hlower.2) hinitial

/-- An accepted call extends the accepted spans, a rejected one leaves the progress. -/
theorem accounts_afterCalls (calls : List ScanSpan)
    (accounts : Accounts initial accepted progress) :
    Accounts initial (accepted ++ (progress.afterCalls calls).1) (progress.afterCalls calls).2 := by
  induction calls generalizing progress accepted with
  | nil => simpa [afterCalls] using accounts
  | cons call calls ih =>
    cases hrun : (ScanProgress.markCompleted call).run progress with
    | ok _ next =>
      simpa [afterCalls, hrun] using ih (accounts.markCompleted hrun)
    | error error next =>
      cases atomic_markCompleted _ _ _ hrun
      simpa [afterCalls, hrun] using ih accounts

theorem Accounts.ordered (accounts : Accounts initial accepted progress) :
    progress.remaining.toList.Pairwise fun a b => a.upper ≤ b.lower := by
  refine ExtTreeSet.ordered_toList.imp_of_mem fun {a b} ha hb hlt => ?_
  rw [ExtTreeSet.mem_toList] at ha hb
  have hne : a ≠ b := by
    rintro rfl
    have hself : ScanSpan.cmp a a = .eq := ReflCmp.compare_self
    cases hself.symm.trans hlt
  by_cases hinitial : initial.lower < initial.upper
  · by_contra hover
    exact hne (accounts.disjoint a ha b hb b.lower
      ⟨ScanSpan.lower_le_of_cmp hlt, Std.not_le.mp hover⟩
      ⟨le_rfl, accounts.wellFormed hinitial b hb⟩)
  · simp only [accounts.unchanged hinitial, ExtTreeSet.mem_insert, LawfulEqCmp.compare_eq_iff_eq,
      ExtTreeSet.not_mem_empty, or_false] at ha hb
    exact absurd (ha.symm.trans hb) hne

/-- The accounting of a scan is exact after any sequence of completions.  The outstanding spans are
valid, disjoint and ordered; a position is outstanding if and only if the scan began with it and no
accepted span had it; a span is accepted if and only if it is valid and all of it is outstanding; a
rejected one changes nothing; and a remainder is never empty, so that none fails to be built. -/
theorem scanProgress_exact (readTs : Timestamp) (initial : ScanSpan) (calls : List ScanSpan) :
    let accepted := ((new readTs initial).afterCalls calls).1
    let progress := ((new readTs initial).afterCalls calls).2
    (initial.validate = .ok () → ∀ span ∈ progress.remaining, span.validate = .ok ()) ∧
    progress.remaining.toList.Pairwise (fun a b => a.upper ≤ b.lower) ∧
    (∀ p, (∃ span ∈ progress.remaining, p ∈ span.points) ↔
      p ∈ initial.points ∧ ∀ span ∈ accepted, p ∉ span.points) ∧
    (∀ span, span ∈ progress.completed ↔ span ∈ accepted) ∧
    (∀ completed, (∃ next, (markCompleted completed).run progress = .ok () next) ↔
      completed.validate = .ok () ∧
        ∀ p ∈ completed.points, ∃ span ∈ progress.remaining, p ∈ span.points) ∧
    (∀ completed error next, (markCompleted completed).run progress = .error error next →
      next = progress) ∧
    ∀ span covered remainder, spansIntersect span covered = true →
      remainder ∈ subtractSpan span covered → remainder.validate = .ok () := by
  intro accepted progress
  have accounts : Accounts initial accepted progress := accounts_afterCalls calls accounts_new
  refine ⟨fun hinitial span hspan => ?_, accounts.ordered, accounts.outstanding,
    accounts.completed, fun completed => ?_, fun completed => atomic_markCompleted progress,
    fun span covered remainder hmeets hmem => ?_⟩
  · exact ScanSpan.validate_eq_ok.mpr
      (accounts.wellFormed (ScanSpan.validate_eq_ok.mp hinitial) span hspan)
  · simp only [markCompleted_eq_ok, ScanSpan.validate_eq_ok]
    exact ⟨fun ⟨_, hvalid, hall, _⟩ => ⟨hvalid, hall⟩, fun ⟨hvalid, hall⟩ => ⟨_, hvalid, hall, rfl⟩⟩
  · exact ScanSpan.validate_eq_ok.mpr (ScanSpan.lower_lt_upper_of_spansIntersect hmeets hmem)

end ScanProgress

end RagnorDb
