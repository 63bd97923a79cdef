import RagnorDb.Lib.Checked

/-!
# Checked codes

A value is converted to a message only after a check, and the message is converted back by a
decoder that checks it again.  `Codes` says what the two conversions have to do with each other;
its rules follow the way such conversions are put together.
-/

namespace Checked

variable {ε ε' α β π π' : Type}
variable {f : α → Except ε π} {g : π → Except ε' α}

/-- The conversion `encode` of `a` fails as the check of `a` does, and otherwise its code decodes
to `a`. -/
def Codes (check : Except ε Unit) (encode : Except ε π) (decode : π → Except ε α) (a : α) : Prop :=
  match check with
  | .ok _ => ∃ code, encode = .ok code ∧ decode code = .ok a
  | .error e => encode = .error e

variable {check : Except ε Unit} {encode : Except ε π} {decode : π → Except ε α} {a : α}

theorem Codes.of_check {rest : Except ε π}
    (h : check = .ok () → ∃ code, rest = .ok code ∧ decode code = .ok a) :
    Codes check (check >>= fun _ => rest) decode a := by
  cases check with
  | ok => exact h rfl
  | error => exact rfl

theorem Codes.exists_code (h : Codes check encode decode a) (hcheck : check = .ok ()) :
    ∃ code, encode = .ok code ∧ decode code = .ok a := by
  rw [hcheck] at h
  exact h

theorem Codes.map {f : π → π'} {g : α → β} {decode' : π' → Except ε β}
    (h : Codes check encode decode a) (hdecode : ∀ code, decode' (f code) = (decode code).map g) :
    Codes check (encode.map f) decode' (g a) := by
  cases check with
  | ok =>
    obtain ⟨code, hcode, ha⟩ := h
    refine ⟨f code, by rw [hcode]; rfl, ?_⟩
    rw [hdecode, ha]
    rfl
  | error e =>
    have herror : encode = .error e := h
    rw [herror]
    exact rfl

theorem exists_optionMapM {o : Option α} (h : ∀ a ∈ o, ∃ code, f a = .ok code ∧ g code = .ok a) :
    ∃ o', o.mapM f = .ok o' ∧ o'.mapM g = .ok o := by
  cases o with
  | none => exact ⟨none, rfl, rfl⟩
  | some a =>
    obtain ⟨code, hcode, ha⟩ := h a rfl
    exact ⟨some code, by simp [hcode], by simp [ha]⟩

theorem exists_listMapM {l : List α} (h : ∀ a ∈ l, ∃ code, f a = .ok code ∧ g code = .ok a) :
    ∃ l', l.mapM f = .ok l' ∧ l'.mapM g = .ok l := by
  obtain ⟨l', hl', hback⟩ := exists_mapM_of_inverse h
  exact ⟨l', hl', mapM_eq_ok.mpr hback⟩

end Checked
