import Mathlib.Logic.Relation
import RagnorDb.Lib.Checked

/-!
# Loops that end

A loop body that fails, goes on, or leaves with a result, together with a measure that every
iteration lowers.  The loop is evaluated with as much fuel as the measure says, which is enough.
A loop without such a measure is followed through the states that it visits; it ends if its states
descend in a well-founded order.
-/

open Checked

universe u v w

namespace Loop

variable {σ : Type u} {ε : Type v} {ρ : Type w}
variable {fuel : Nat} {s t : σ} {P : σ → Prop} {result : Except ε ρ}

/-- Run the body until it leaves, at most `fuel` times. -/
def iterate (body : σ → Except ε (σ ⊕ ρ)) : Nat → σ → Option (Except ε ρ)
  | 0, _ => none
  | fuel + 1, s =>
    match body s with
    | .error e => some (.error e)
    | .ok (.inr r) => some (.ok r)
    | .ok (.inl s') => iterate body fuel s'

variable {body : σ → Except ε (σ ⊕ ρ)} {measure : σ → Nat}

/-- Each iteration lowers the measure. -/
def Decreases (body : σ → Except ε (σ ⊕ ρ)) (measure : σ → Nat) : Prop :=
  ∀ s s', body s = .ok (.inl s') → measure s' < measure s

theorem iterate_isSome (h : Decreases body measure) (hfuel : measure s < fuel) :
    (iterate body fuel s).isSome := by
  induction fuel generalizing s with
  | zero => omega
  | succ fuel ih =>
    unfold iterate
    split
    · rfl
    · rfl
    · rename_i s' hs'
      have hlt := h s s' hs'
      exact ih (by omega)

/-- The loop `loop { body }`. -/
def run (body : σ → Except ε (σ ⊕ ρ)) (measure : σ → Nat) (h : Decreases body measure) (s : σ) :
    Except ε ρ :=
  (iterate body (measure s + 1) s).get (iterate_isSome h (Nat.lt_succ_self _))

/-! ## Loops that may not end -/

variable (body : σ → Except ε (σ ⊕ ρ))

/-- The states that the loop passes through. -/
def Visits : σ → σ → Prop :=
  Relation.ReflTransGen fun s s' => body s = .ok (.inl s')

/-- The loop ends with a result if it is given enough fuel. -/
def Ends (s : σ) (result : Except ε ρ) : Prop :=
  ∃ fuel, iterate body fuel s = some result

/-- The result of an iteration that does not go on. -/
def Exits (s : σ) : Except ε ρ → Prop
  | .error e => body s = .error e
  | .ok r => body s = .ok (.inr r)

variable {body}

theorem iterate_of_next {s' : σ} (h : body s = .ok (.inl s')) :
    iterate body (fuel + 1) s = iterate body fuel s' := by
  rw [iterate, h]

theorem Exits.iterate (h : Exits body s result) : iterate body (fuel + 1) s = some result := by
  cases result with
  | error e =>
    have hbody : body s = .error e := h
    rw [iterate, hbody]
  | ok r =>
    have hbody : body s = .ok (.inr r) := h
    rw [iterate, hbody]

/-- A loop that ends does so in one of the states that it visits. -/
theorem ends_iff :
    Ends body s result ↔ ∃ last, Visits body s last ∧ Exits body last result := by
  constructor
  · rintro ⟨fuel, hfuel⟩
    induction fuel generalizing s with
    | zero => cases hfuel
    | succ fuel ih =>
      cases hbody : body s with
      | error =>
        rw [iterate, hbody] at hfuel
        cases hfuel
        exact ⟨s, .refl, hbody⟩
      | ok next =>
        cases next with
        | inl =>
          rw [iterate_of_next hbody] at hfuel
          obtain ⟨last, hvisits, hexits⟩ := ih hfuel
          exact ⟨last, .head hbody hvisits, hexits⟩
        | inr =>
          rw [iterate, hbody] at hfuel
          cases hfuel
          exact ⟨s, .refl, hbody⟩
  · rintro ⟨last, hvisits, hexits⟩
    induction hvisits using Relation.ReflTransGen.head_induction_on with
    | refl => exact ⟨1, hexits.iterate⟩
    | head hbody _ ih =>
      obtain ⟨fuel, hfuel⟩ := ih
      exact ⟨fuel + 1, (iterate_of_next hbody).trans hfuel⟩

theorem exists_ends {α : Type u} {r : α → α → Prop} (hr : WellFounded r) (measure : σ → α)
    (hnext : ∀ s s', P s → body s = .ok (.inl s') → P s' ∧ r (measure s') (measure s))
    (hs : P s) : ∃ result, Ends body s result := by
  induction hm : measure s using hr.induction generalizing s with
  | _ m ih =>
    cases hbody : body s with
    | error e => exact ⟨.error e, 1, Exits.iterate hbody⟩
    | ok next =>
      cases next with
      | inl s' =>
        obtain ⟨hs', hlt⟩ := hnext s s' hs hbody
        obtain ⟨result, fuel, hfuel⟩ := ih (measure s') (hm ▸ hlt) hs' rfl
        exact ⟨result, fuel + 1, (iterate_of_next hbody).trans hfuel⟩
      | inr result => exact ⟨.ok result, 1, Exits.iterate hbody⟩

/-- Whether a test holds in all states of a loop that ends with the fuel. -/
def passes (body : σ → Except ε (σ ⊕ ρ)) (test : σ → Bool) : Nat → σ → Bool
  | 0, _ => false
  | fuel + 1, s =>
    test s && match body s with
      | .ok (.inl s') => passes body test fuel s'
      | _ => true

theorem test_of_passes {test : σ → Bool}
    (h : passes body test fuel s = true) (hvisits : Visits body s t) : test t = true := by
  induction hvisits using Relation.ReflTransGen.head_induction_on generalizing fuel with
  | refl =>
    cases fuel with
    | zero => cases h
    | succ => exact (Bool.and_eq_true_iff.mp h).1
  | head hbody _ ih =>
    cases fuel with
    | zero => cases h
    | succ =>
      rw [passes, hbody] at h
      exact ih (Bool.and_eq_true_iff.mp h).2

theorem length_filter_lt {α : Type u} {l : List α} {p q : α → Bool}
    (h : ∀ a, q a = true → p a = true) {a : α} (ha : a ∈ l) (hp : p a = true) (hq : ¬ q a = true) :
    (l.filter q).length < (l.filter p).length := by
  have hfilter : l.filter q = (l.filter p).filter q := by
    rw [List.filter_filter]
    refine List.filter_congr fun b _ => ?_
    rw [Bool.eq_iff_iff, Bool.and_eq_true]
    exact ⟨fun hb => ⟨hb, h b hb⟩, And.left⟩
  rw [hfilter, List.length_filter_lt_length_iff_exists]
  exact ⟨a, List.mem_filter.mpr ⟨ha, hp⟩, hq⟩

end Loop
