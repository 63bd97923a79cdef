import Mathlib.Data.List.Forall2
import Mathlib.Data.List.Induction
import Mathlib.Data.List.Nodup

/-!
# Fallible computations

`Except ε` is a check that only reads; `EStateM ε σ` is a method that may also change its
state, and keeps the changes made before it failed.  A check can be used inside a method.
The lemmas take a successful computation apart into its successful parts, and read the
effect of a batch of changes at distinct places off one place at a time.
-/

universe u v w

/-- A read-only check inside a stateful method. -/
instance Checked.monadLift {ε σ : Type u} : MonadLift (Except ε) (EStateM ε σ) where
  monadLift x s :=
    match x with
    | .ok a => .ok a s
    | .error e => .error e s

namespace Checked

/-! ## Checks -/

variable {ε ε' : Type u} {α β σ : Type v} {γ : Type w} {x : Except ε α} {a : α} {b : β} {e : ε}
  {l : List γ} {bs : List β} {p : Prop} {f : α → Except ε β}

@[simp] theorem bind_eq_ok {x : Except ε α} {b : β} :
    (x >>= f) = .ok b ↔ ∃ a, x = .ok a ∧ f a = .ok b := by
  cases x with
  | error | ok => simp [bind, Except.bind]

@[simp] theorem map_eq_ok {f : α → β} : f <$> x = .ok b ↔ ∃ a, x = .ok a ∧ f a = b := by
  cases x with
  | error | ok => simp [Functor.map, Except.map]

@[simp] theorem throw_ne_ok : (throw e : Except ε α) ≠ .ok a := by
  intro h
  cases h

@[simp] theorem pure_eq_ok {a b : α} : (pure a : Except ε α) = .ok b ↔ a = b := by
  simp [pure, Except.pure]

@[simp] theorem ok_bind : ((.ok a : Except ε α) >>= f) = f a := rfl

@[simp] theorem error_bind : ((.error e : Except ε α) >>= f) = .error e := rfl

/-- Fail with `e` when `p` holds. -/
def rejectIf (p : Prop) [Decidable p] (e : ε) : Except ε Unit :=
  if p then .error e else .ok ()

@[simp] theorem rejectIf_eq_ok [Decidable p] {u : Unit} : rejectIf p e = .ok u ↔ ¬p := by
  unfold rejectIf
  split
  · next h => simp [h]
  · next h => simp [h]

/-- `Option::ok_or`. -/
def okOr (o : Option α) (e : ε) : Except ε α :=
  match o with
  | some a => .ok a
  | none => .error e

@[simp] theorem okOr_eq_ok {o : Option α} : okOr o e = .ok a ↔ o = some a := by
  cases o <;> simp [okOr]

@[simp] theorem mapError_eq_ok {f : ε → ε'} : x.mapError f = .ok a ↔ x = .ok a := by
  cases x <;> simp [Except.mapError]

/-- The rules that take a successful check apart, as one argument for `simp only`. -/
theorem eq_ok : type_of% @bind_eq_ok.{0, 0} ∧ type_of% @pure_eq_ok.{0, 0} ∧
    type_of% @rejectIf_eq_ok.{0} ∧ type_of% @okOr_eq_ok.{0, 0} ∧ type_of% @mapError_eq_ok.{0, 0} ∧
    type_of% @not_or ∧ type_of% @not_not :=
  ⟨bind_eq_ok, pure_eq_ok, rejectIf_eq_ok, okOr_eq_ok, mapError_eq_ok, not_or, not_not⟩

/-- The same rules, without the results of checks that return none. -/
theorem eq_ok' : type_of% eq_ok ∧ ∀ {p : Prop}, (∃ _ : Unit, p) ↔ p :=
  ⟨eq_ok, exists_const _⟩

/-- The rules that take an optional result apart. -/
theorem eq_some : type_of% @Option.ite_none_right_eq_some.{0} ∧ type_of% @Option.some_inj.{0} ∧
    type_of% @Option.bind_eq_some_iff.{0, 0} ∧ type_of% @Option.map_eq_some_iff.{0, 0} ∧
    type_of% @Option.isNone_iff_eq_none.{0} :=
  ⟨Option.ite_none_right_eq_some, Option.some_inj, Option.bind_eq_some_iff, Option.map_eq_some_iff,
    Option.isNone_iff_eq_none⟩

theorem not_any_iff {o : Option α} {p : α → Bool} :
    ¬o.any p = true ↔ ∀ a, o = some a → ¬p a = true := by
  cases o <;> simp

theorem forM_eq_ok {f : γ → Except ε PUnit} {u : PUnit} :
    l.forM f = .ok u ↔ ∀ x ∈ l, f x = .ok ⟨⟩ := by
  induction l with
  | nil => simp [List.forM]
  | cons x l ih =>
    rw [List.forM, bind_eq_ok]
    constructor
    · rintro ⟨⟨⟩, hx, hl⟩
      simpa [hx] using ih.mp hl
    · intro h
      exact ⟨⟨⟩, h x (by simp), ih.mpr fun y hy => h y (List.mem_cons_of_mem _ hy)⟩

variable {R : γ → β → Prop}

theorem exists_of_mem_forall₂ {l' : List β} (h : List.Forall₂ R l l') {x : γ}
    (hx : x ∈ l) : ∃ y ∈ l', R x y := by
  induction h with
  | nil => simp at hx
  | cons hR _ ih =>
    rcases List.mem_cons.mp hx with rfl | hx
    · exact ⟨_, List.mem_cons_self, hR⟩
    · obtain ⟨y, hy, hR⟩ := ih hx
      exact ⟨y, List.mem_cons_of_mem _ hy, hR⟩

theorem forall₂_comp_iff {δ : Type*} {S : β → δ → Prop} {l' : List δ} :
    (∃ m, List.Forall₂ R l m ∧ List.Forall₂ S m l') ↔
      List.Forall₂ (fun x z => ∃ y, R x y ∧ S y z) l l' := by
  constructor
  · rintro ⟨m, hR, hS⟩
    induction hR generalizing l' with
    | nil =>
      cases hS
      exact .nil
    | cons hxy _ ih =>
      cases hS with
      | cons hyz hS => exact .cons ⟨_, hxy, hyz⟩ (ih hS)
  · intro h
    induction h with
    | nil => exact ⟨[], .nil, .nil⟩
    | cons hxz _ ih =>
      obtain ⟨y, hxy, hyz⟩ := hxz
      obtain ⟨m, hR, hS⟩ := ih
      exact ⟨y :: m, .cons hxy hR, .cons hyz hS⟩

variable {f : γ → Except ε β}

theorem mapM_eq_ok :
    l.mapM f = .ok bs ↔ List.Forall₂ (fun x b => f x = .ok b) l bs := by
  induction l generalizing bs with
  | nil =>
    rw [List.mapM_nil, pure_eq_ok, List.forall₂_nil_left_iff, eq_comm]
  | cons x l ih =>
    rw [List.mapM_cons, List.forall₂_cons_left_iff]
    simp only [bind_eq_ok, pure_eq_ok, ih]
    constructor
    · rintro ⟨b, hb, bs', hbs, rfl⟩
      exact ⟨b, bs', hb, hbs, rfl⟩
    · rintro ⟨b, bs', hb, hbs, rfl⟩
      exact ⟨b, hb, bs', hbs, rfl⟩

theorem length_of_mapM_eq_ok (h : l.mapM f = .ok bs) : bs.length = l.length :=
  (mapM_eq_ok.mp h).length_eq.symm

theorem mapM_eq_ok_map {g : γ → β} : l.mapM f = .ok (l.map g) ↔ ∀ x ∈ l, f x = .ok (g x) := by
  rw [mapM_eq_ok, List.forall₂_map_right_iff, List.forall₂_same]

theorem exists_mapM (h : ∀ x ∈ l, ∃ b, f x = .ok b) : ∃ bs, l.mapM f = .ok bs := by
  simp only [mapM_eq_ok]
  have hall : List.Forall₂ (fun x _ => ∃ b, f x = .ok b ∧ True) l l :=
    List.forall₂_same.mpr (by simpa using h)
  obtain ⟨bs, hbs, -⟩ := forall₂_comp_iff.mpr hall
  exact ⟨bs, hbs⟩

theorem exists_mapM_of_inverse {encode : γ → Except ε β} {decode : β → Except ε' γ}
    (h : ∀ x ∈ l, ∃ b, encode x = .ok b ∧ decode b = .ok x) :
    ∃ bs, l.mapM encode = .ok bs ∧ List.Forall₂ (fun b x => decode b = .ok x) bs l := by
  simp only [mapM_eq_ok]
  exact forall₂_comp_iff.mpr (List.forall₂_same.mpr h)

theorem exists_of_mem_mapM (h : l.mapM f = .ok bs) (hb : b ∈ bs) : ∃ x ∈ l, f x = .ok b :=
  exists_of_mem_forall₂ (mapM_eq_ok.mp h).flip hb

theorem exists_mem_of_mapM (h : l.mapM f = .ok bs) {x : γ} (hx : x ∈ l) : ∃ b ∈ bs, f x = .ok b :=
  exists_of_mem_forall₂ (mapM_eq_ok.mp h) hx

variable {f : σ → γ → Except ε σ} {P : List γ → σ → Prop}

theorem foldlM_ok (hstep : ∀ {done x s s'}, P done s → f s x = .ok s' → P (done ++ [x]) s')
    {s s' : σ} (hs : P [] s) (h : l.foldlM f s = .ok s') : P l s' := by
  induction l using List.reverseRecOn generalizing s' with
  | nil =>
    cases h
    exact hs
  | append_singleton l x ih =>
    rw [List.foldlM_append, bind_eq_ok] at h
    obtain ⟨s₁, hl, hx⟩ := h
    simp only [List.foldlM_cons, List.foldlM_nil, bind_pure] at hx
    exact hstep (ih hl) hx

/-- The rule for a loop that succeeds. -/
theorem exists_foldlM (hstep : ∀ {done x s}, done ++ [x] <+: l → P done s →
      ∃ s', f s x = .ok s' ∧ P (done ++ [x]) s') {s : σ} (hs : P [] s) :
    ∃ s', l.foldlM f s = .ok s' ∧ P l s' := by
  induction l using List.reverseRecOn with
  | nil => exact ⟨s, rfl, hs⟩
  | append_singleton l x ih =>
    obtain ⟨s₁, hl, hs₁⟩ := ih fun h => hstep (h.trans (List.prefix_append l [x]))
    obtain ⟨s', hx, hs'⟩ := hstep List.prefix_rfl hs₁
    refine ⟨s', ?_, hs'⟩
    rw [List.foldlM_append, hl, ok_bind, List.foldlM_cons, hx]
    rfl

/-- A loop that appends the code of each element. -/
theorem foldlM_append_eq_ok {f : List β → γ → Except ε (List β)} {code : γ → List β} {Q : γ → Prop}
    {out bytes : List β} (hf : ∀ {out x bytes}, f out x = .ok bytes ↔ Q x ∧ bytes = out ++ code x) :
    l.foldlM f out = .ok bytes ↔ (∀ x ∈ l, Q x) ∧ bytes = out ++ (l.map code).flatten := by
  induction l generalizing out with
  | nil => simpa using eq_comm
  | cons x l ih =>
    simp only [List.foldlM_cons, bind_eq_ok, hf, ih, List.forall_mem_cons, List.map_cons,
      List.flatten_cons]
    constructor
    · rintro ⟨_, ⟨hx, rfl⟩, hl, hbytes⟩
      exact ⟨⟨hx, hl⟩, by rw [hbytes, List.append_assoc]⟩
    · rintro ⟨⟨hx, hl⟩, hbytes⟩
      exact ⟨_, ⟨hx, rfl⟩, hl, by rw [hbytes, List.append_assoc]⟩

variable {f : γ → Except ε (Option β)}

/-- What a collecting loop gathers: every check succeeds, and the results that are present
are kept in order. -/
theorem filterMapM_eq_ok : l.filterMapM f = .ok bs ↔
      (∀ x ∈ l, ∃ o, f x = .ok o) ∧ bs = l.filterMap fun x => (f x).toOption.join := by
  induction l generalizing bs with
  | nil =>
    rw [List.filterMapM_nil, pure_eq_ok, List.filterMap_nil]
    simp [eq_comm]
  | cons x l ih =>
    rw [List.filterMapM_cons, List.filterMap_cons]
    cases hx : f x with
    | error => simp [hx]
    | ok o =>
      cases o with
      | none => simp [hx, ih, Except.toOption]
      | some b =>
        simp only [ok_bind, bind_eq_ok, pure_eq_ok, ih, hx, Except.toOption,
          List.forall_mem_cons, Option.join_some]
        constructor
        · rintro ⟨bs', ⟨hl, rfl⟩, rfl⟩
          exact ⟨⟨⟨some b, rfl⟩, hl⟩, rfl⟩
        · rintro ⟨⟨_, hl⟩, rfl⟩
          exact ⟨_, ⟨hl, rfl⟩, rfl⟩

theorem filterMapM_singleton_eq_ok {x : γ} :
    [x].filterMapM f = .ok bs ↔ ∃ o, f x = .ok o ∧ o.toList = bs := by
  cases hx : f x with
  | error => simp [hx]
  | ok o => cases o <;> simp [hx]

/-! ### The errors of a check -/

@[simp] theorem toOption_eq_some : x.toOption = some a ↔ x = .ok a := by
  cases x <;> simp [Except.toOption]

section IsOk

@[simp] theorem exists_unit {p : Unit → Prop} : (∃ u, p u) ↔ p () :=
  ⟨fun ⟨_, h⟩ => h, fun h => ⟨(), h⟩⟩

theorem isOk_iff : x.isOk = true ↔ ∃ a, x = .ok a := by
  cases x <;> simp [Except.isOk, Except.toBool]

@[simp] theorem isOk_ok : (.ok a : Except ε α).isOk = true := rfl

@[simp] theorem isOk_error : (.error e : Except ε α).isOk = false := rfl

@[simp] theorem isOk_pure : (pure a : Except ε α).isOk = true := rfl

@[simp] theorem isOk_bind {f : α → Except ε β} :
    (x >>= f).isOk = true ↔ ∃ a, x = .ok a ∧ (f a).isOk = true := by
  cases x <;> simp

@[simp] theorem isOk_map {f : α → β} : (f <$> x).isOk = true ↔ ∃ a, x = .ok a := by
  cases x <;> simp

@[simp] theorem isOk_ite [Decidable p] {x y : Except ε α} :
    (if p then x else y).isOk = true ↔ (p → x.isOk = true) ∧ (¬p → y.isOk = true) := by
  by_cases h : p <;> simp [h]

end IsOk

/-- The error that a check failed with. -/
def errorOf : Except ε α → Option ε
  | .error e => some e
  | .ok _ => none

@[simp] theorem errorOf_eq_some : errorOf x = some e ↔ x = .error e := by
  cases x <;> simp [errorOf]

/-- Every error that a check can fail with meets `P`. -/
def FailsWith (P : ε → Prop) (x : Except ε α) : Prop :=
  ∀ e, x = .error e → P e

section FailsWith

variable {P : ε → Prop}

@[simp] theorem failsWith_ok : FailsWith P (.ok a : Except ε α) := by
  intro e h
  cases h

@[simp] theorem failsWith_pure : FailsWith P (pure a : Except ε α) :=
  failsWith_ok

@[simp] theorem failsWith_error : FailsWith P (.error e : Except ε α) ↔ P e := by
  simp [FailsWith]

@[simp] theorem failsWith_true : FailsWith (fun _ => True) x :=
  fun _ _ => trivial

@[simp] theorem failsWith_bind {f : α → Except ε β} :
    FailsWith P (x >>= f) ↔ FailsWith P x ∧ ∀ a, x = .ok a → FailsWith P (f a) := by
  cases x with
  | error | ok => simp

@[simp] theorem failsWith_ite [Decidable p] {x y : Except ε α} :
    FailsWith P (if p then x else y) ↔ (p → FailsWith P x) ∧ (¬p → FailsWith P y) := by
  by_cases h : p <;> simp [h]

@[simp] theorem failsWith_map {f : α → β} : FailsWith P (f <$> x) ↔ FailsWith P x := by
  cases x with
  | error | ok => simp [Functor.map, Except.map]

@[simp] theorem failsWith_rejectIf [Decidable p] : FailsWith P (rejectIf p e) ↔ (p → P e) := by
  unfold rejectIf
  by_cases h : p <;> simp [h]

@[simp] theorem failsWith_okOr {o : Option α} : FailsWith P (okOr o e) ↔ (o = none → P e) := by
  cases o <;> simp [okOr]

@[simp] theorem failsWith_mapError {P : ε' → Prop} {f : ε → ε'} :
    FailsWith P (x.mapError f) ↔ FailsWith (fun e => P (f e)) x := by
  cases x <;> simp [Except.mapError]

theorem failsWith_forM {f : γ → Except ε PUnit} (h : ∀ x ∈ l, FailsWith P (f x)) :
    FailsWith P (l.forM f) := by
  induction l with
  | nil => exact failsWith_ok
  | cons x l ih =>
    rw [List.forM, failsWith_bind]
    exact ⟨h x (by simp), fun _ _ => ih fun y hy => h y (List.mem_cons_of_mem _ hy)⟩

theorem failsWith_filterMapM {f : γ → Except ε (Option β)} (h : ∀ x ∈ l, FailsWith P (f x)) :
    FailsWith P (l.filterMapM f) := by
  induction l with
  | nil => simp
  | cons x l ih =>
    have hl := ih fun y hy => h y (List.mem_cons_of_mem _ hy)
    rw [List.filterMapM_cons, failsWith_bind]
    refine ⟨h x (by simp), fun o _ => ?_⟩
    cases o with
    | none => exact hl
    | some => simpa using hl

theorem failsWith_foldlM {f : σ → γ → Except ε σ} (h : ∀ s, ∀ x ∈ l, FailsWith P (f s x)) (s : σ) :
    FailsWith P (l.foldlM f s) := by
  induction l generalizing s with
  | nil => simp
  | cons x l ih =>
    rw [List.foldlM_cons, failsWith_bind]
    exact ⟨h s x (by simp), fun s' _ => ih (fun t y hy => h t y (List.mem_cons_of_mem _ hy)) s'⟩

theorem failsWith_of_ok (h : x = .ok a) : FailsWith P x := by
  rw [h]
  exact failsWith_ok

end FailsWith

/-! ## Methods -/

section Method

variable {ε σ α β : Type u} {x : Except ε α} {m : EStateM ε σ α} {f : α → EStateM ε σ β} {s s' : σ}
  {a : α} {b : β} {e : ε}

@[simp] theorem lift_bind_run_eq_ok : ((liftM x : EStateM ε σ α) >>= f).run s = .ok b s' ↔
      ∃ a, x = .ok a ∧ (f a).run s = .ok b s' := by
  cases x with
  | ok a =>
    change (f a).run s = _ ↔ _
    simp
  | error e =>
    change EStateM.Result.error e s = _ ↔ _
    simp

theorem lift_bind_run_eq_error : ((liftM x : EStateM ε σ α) >>= f).run s = .error e s' ↔
      x = .error e ∧ s' = s ∨ ∃ a, x = .ok a ∧ (f a).run s = .error e s' := by
  cases x with
  | ok a =>
    change (f a).run s = _ ↔ _
    simp
  | error e' =>
    change EStateM.Result.error e' s = _ ↔ _
    simp [eq_comm]

@[simp] theorem get_bind_run {f : σ → EStateM ε σ β} :
    ((get : EStateM ε σ σ) >>= f).run s = (f s).run s := rfl

/-- Publish the delta of one check, if there is one. -/
def publish {δ : Type u} (f : σ → δ → σ) (o : Option δ) : EStateM ε σ PUnit :=
  match o with
  | some d => modify fun s => f s d
  | none => pure ⟨⟩

@[simp] theorem publish_run {δ : Type u} {f : σ → δ → σ} {o : Option δ} :
    (publish f o : EStateM ε σ PUnit).run s = .ok ⟨⟩ (o.toList.foldl f s) := by
  cases o <;> rfl

variable {g : PUnit → EStateM ε σ β}

@[simp] theorem modify_bind_run {f : σ → σ} :
    ((modify f : EStateM ε σ PUnit) >>= g).run s = (g ⟨⟩).run (f s) := rfl

@[simp] theorem set_bind_run {t : σ} :
    ((set t : EStateM ε σ PUnit) >>= g).run s = (g ⟨⟩).run t := rfl

/-- The rules that take a successful method apart. -/
theorem run_eq_ok : type_of% @lift_bind_run_eq_ok.{0} ∧ type_of% @get_bind_run.{0} ∧
    type_of% @EStateM.run_pure.{0} :=
  ⟨lift_bind_run_eq_ok, get_bind_run, EStateM.run_pure⟩

/-- The state after a call, whether it returned or failed. -/
def after (m : EStateM ε σ α) (s : σ) : σ :=
  match m.run s with
  | .ok _ s' | .error _ s' => s'

/-- What a call returns. -/
def answer (m : EStateM ε σ α) (s : σ) : Except ε α :=
  match m.run s with
  | .ok a _ => .ok a
  | .error e _ => .error e

theorem after_of_ok (h : m.run s = .ok a s') : after m s = s' := by
  rw [after, h]

theorem run_of_answer (h : answer m s = .ok a) : m.run s = .ok a (after m s) := by
  unfold answer at h
  unfold after
  cases hrun : m.run s with
  | ok =>
    rw [hrun] at h
    cases h
    rfl
  | error =>
    rw [hrun] at h
    cases h

theorem after_of_error (h : m.run s = .error e s') : after m s = s' := by
  rw [after, h]

/-- What a call ends in: `Q` where it returns and `E` where it fails. -/
def Ends (Q : α → σ → Prop) (E : σ → Prop) : EStateM.Result ε σ α → Prop
  | .ok a s => Q a s
  | .error _ s => E s

section Ends

variable {Q : β → σ → Prop} {R R' : α → σ → Prop} {E E' : σ → Prop}

theorem Ends.imp {result : EStateM.Result ε σ α} (h : Ends R E result)
    (hR : ∀ a s, R a s → R' a s) (hE : ∀ s, E s → E' s) : Ends R' E' result := by
  cases result with
  | ok a s => exact hR a s h
  | error e s => exact hE s h

theorem Ends.of_ok (h : Ends R E (m.run s)) (hrun : m.run s = .ok a s') : R a s' := by
  rwa [hrun] at h

theorem Ends.bind (h : Ends R E (m.run s)) (hf : ∀ a s', R a s' → Ends Q E ((f a).run s')) :
    Ends Q E ((m >>= f).run s) := by
  rw [EStateM.run_bind]
  cases hrun : m.run s with
  | ok a s' => exact hf a s' (h.of_ok hrun)
  | error => rwa [hrun] at h

theorem Ends.lift_bind (he : E s) (hf : ∀ a, x = .ok a → Ends Q E ((f a).run s)) :
    Ends Q E (((liftM x : EStateM ε σ α) >>= f).run s) := by
  cases x with
  | ok a => exact hf a rfl
  | error => exact he

theorem Ends.after (h : Ends R E (m.run s)) (hR : ∀ a s', R a s' → E s') : E (after m s) := by
  rw [Checked.after]
  cases hrun : m.run s with
  | ok a s' => exact hR a s' (h.of_ok hrun)
  | error => rwa [hrun] at h

end Ends

theorem failsWith_answer_lift_bind {P : ε → Prop} :
    FailsWith P (answer ((liftM x : EStateM ε σ α) >>= f) s) ↔
      FailsWith P x ∧ ∀ a, x = .ok a → FailsWith P (answer (f a) s) := by
  cases x with
  | ok a =>
    change FailsWith P (answer (f a) s) ↔ _
    simp
  | error e =>
    change FailsWith P (.error e : Except ε β) ↔ _
    simp

theorem answer_bind_of_ok (h : m.run s = .ok a s') : answer (m >>= f) s = answer (f a) s' := by
  rw [answer, answer, EStateM.run_bind, h]

theorem answer_bind_of_error (h : m.run s = .error e s') : answer (m >>= f) s = .error e := by
  rw [answer, EStateM.run_bind, h]

@[simp] theorem answer_get_bind {f : σ → EStateM ε σ β} :
    answer ((get : EStateM ε σ σ) >>= f) s = answer (f s) s := by
  rw [answer, get_bind_run, answer]

/-- The rules that take the errors of a check or a method apart. -/
theorem failsWith_iff : type_of% @failsWith_answer_lift_bind.{0} ∧ type_of% @answer_get_bind.{0} ∧
    type_of% @failsWith_bind.{0, 0} ∧ type_of% @failsWith_rejectIf.{0} ∧
    type_of% @failsWith_okOr.{0, 0} ∧ type_of% @failsWith_mapError.{0, 0} :=
  ⟨failsWith_answer_lift_bind, answer_get_bind, failsWith_bind, failsWith_rejectIf, failsWith_okOr,
    failsWith_mapError⟩

@[simp] theorem answer_pure : answer (pure a : EStateM ε σ α) s = .ok a := rfl

@[simp] theorem answer_modify {f : σ → σ} : answer (modify f : EStateM ε σ PUnit) s = .ok ⟨⟩ := rfl

@[simp] theorem answer_modify_bind {f : σ → σ} :
    answer ((modify f : EStateM ε σ PUnit) >>= g) s = answer (g ⟨⟩) (f s) := by
  rw [answer, modify_bind_run, answer]

theorem bind_run_of_ok (h : m.run s = .ok a s') : (m >>= f).run s = (f a).run s' := by
  rw [EStateM.run_bind, h]

theorem bind_run_of_error (h : m.run s = .error e s') : (m >>= f).run s = .error e s' := by
  rw [EStateM.run_bind, h]

theorem lift_bind_run_of_ok (h : x = .ok a) :
    ((liftM x : EStateM ε σ α) >>= f).run s = (f a).run s := by
  rw [h]
  rfl

theorem lift_bind_run_of_error (h : x = .error e) :
    ((liftM x : EStateM ε σ α) >>= f).run s = .error e s := by
  rw [h]
  rfl

/-- A method that changes nothing when it fails. -/
def Atomic (m : EStateM ε σ α) : Prop :=
  ∀ s e s', m.run s = .error e s' → s' = s

theorem Atomic.pure (a : α) : Atomic (Pure.pure a : EStateM ε σ α) := by
  intro s e s' h
  cases h

theorem Atomic.throw (e : ε) : Atomic (MonadExcept.throw e : EStateM ε σ α) := by
  intro s e' s' h
  cases h
  rfl

theorem Atomic.modify_bind (f : σ → σ) (b : β) :
    Atomic ((modify f : EStateM ε σ PUnit) >>= fun _ => Pure.pure b) := by
  intro s e s' h
  cases h

theorem Atomic.modify (f : σ → σ) : Atomic (modify f : EStateM ε σ PUnit) := by
  intro s e s' h
  cases h

theorem Atomic.publish {δ : Type u} (f : σ → δ → σ) (o : Option δ) :
    Atomic (publish f o : EStateM ε σ PUnit) := by
  intro s e s' h
  rw [publish_run] at h
  cases h

/-- A method that never fails. -/
def Total (m : EStateM ε σ α) : Prop :=
  ∀ s, ∃ a s', m.run s = .ok a s'

theorem Total.modify_bind (f : σ → σ) (b : β) :
    Total ((modify f : EStateM ε σ PUnit) >>= fun _ => Pure.pure b) :=
  fun s => ⟨b, f s, rfl⟩

theorem Total.pure (b : β) : Total (Pure.pure b : EStateM ε σ β) :=
  fun s => ⟨b, s, rfl⟩

theorem Atomic.bind_total (hm : Atomic m) (hf : ∀ a, Total (f a)) : Atomic (m >>= f) := by
  intro s e s' h
  rw [EStateM.run_bind] at h
  cases hrun : m.run s with
  | ok a s₁ =>
    obtain ⟨b, s₂, hb⟩ := hf a s₁
    rw [hrun] at h
    change (f a).run s₁ = _ at h
    rw [hb] at h
    cases h
  | error =>
    rw [hrun] at h
    cases h
    exact hm s e s' hrun

theorem Atomic.bind_pure (hm : Atomic m) (b : β) : Atomic (m >>= fun _ => Pure.pure b) :=
  hm.bind_total fun _ => .pure b

theorem Atomic.get_bind {f : σ → EStateM ε σ β} (hf : ∀ s, Atomic (f s)) :
    Atomic ((get : EStateM ε σ σ) >>= f) :=
  fun s => hf s s

theorem Atomic.lift_bind (hf : ∀ a, Atomic (f a)) : Atomic ((liftM x : EStateM ε σ α) >>= f) := by
  intro s e s' h
  cases x with
  | ok a => exact hf a s e s' h
  | error =>
    cases h
    rfl

end Method

/-! ## Batches at distinct places -/

section Batch

variable {σ : Type u} {γ : Type v} {κ : Type w} {ρ : Type*} [DecidableEq κ]
  {view : σ → κ → ρ} {key : γ → κ} {f : σ → γ → σ} {upd : γ → ρ → ρ}

section

variable (hf : ∀ s x k, view (f s x) k = if key x = k then upd x (view s k) else view s k)
include hf

theorem foldl_view_of_not_mem {l : List γ} {k : κ} (hk : ∀ x ∈ l, key x ≠ k) (s : σ) :
    view (l.foldl f s) k = view s k := by
  induction l generalizing s with
  | nil => rfl
  | cons x l ih =>
    rw [List.foldl_cons, ih (fun y hy => hk y (List.mem_cons_of_mem _ hy)), hf,
      if_neg (hk x (by simp))]

theorem foldl_view_of_mem {l : List γ} (hl : (l.map key).Nodup) {x : γ} (hx : x ∈ l) (s : σ) :
    view (l.foldl f s) (key x) = upd x (view s (key x)) := by
  induction l generalizing s with
  | nil => cases hx
  | cons y l ih =>
    rw [List.map_cons, List.nodup_cons] at hl
    rw [List.foldl_cons]
    rcases List.mem_cons.mp hx with rfl | hxl
    · rw [foldl_view_of_not_mem hf, hf, if_pos rfl]
      intro z hz hkey
      exact hl.1 (List.mem_map.mpr ⟨z, hz, hkey⟩)
    · rw [ih hl.2 hxl, hf, if_neg]
      intro hkey
      exact hl.1 (List.mem_map.mpr ⟨x, hxl, hkey.symm⟩)

/-- The effect of the deltas that the elements of a list give, at distinct places. -/
theorem foldl_filterMap_view_of_mem {δ : Type*} {place : δ → κ} {delta : δ → Option γ}
    (hkey : ∀ a x, delta a = some x → key x = place a) {l : List δ} (hl : (l.map place).Nodup)
    {a : δ} (ha : a ∈ l) (s : σ) : view ((l.filterMap delta).foldl f s) (place a) =
      (delta a).elim (view s (place a)) (fun x => upd x (view s (place a))) := by
  have hother : ∀ b ∈ l, place b = place a → b = a := fun b hb hab =>
    List.inj_on_of_nodup_map hl hb ha hab
  cases hd : delta a with
  | none =>
    refine foldl_view_of_not_mem hf ?_ s
    intro x hx hxa
    obtain ⟨b, hb, hbx⟩ := List.mem_filterMap.mp hx
    cases hother b hb ((hkey b x hbx).symm.trans hxa)
    cases hd.symm.trans hbx
  | some x =>
    rw [← hkey a x hd]
    refine foldl_view_of_mem hf ?_ (List.mem_filterMap.mpr ⟨a, ha, hd⟩) s
    rw [List.Nodup, List.pairwise_map] at hl ⊢
    rw [List.pairwise_filterMap]
    refine hl.imp ?_
    intro b c hbc y hy z hz
    rw [hkey b y hy, hkey c z hz]
    exact hbc

theorem foldl_filterMap_view_of_not_mem {δ : Type*} {place : δ → κ} {delta : δ → Option γ}
    (hkey : ∀ a x, delta a = some x → key x = place a) {l : List δ} {k : κ}
    (hk : ∀ a ∈ l, place a ≠ k) (s : σ) : view ((l.filterMap delta).foldl f s) k = view s k := by
  refine foldl_view_of_not_mem hf ?_ s
  intro x hx
  obtain ⟨a, ha, hax⟩ := List.mem_filterMap.mp hx
  rw [hkey a x hax]
  exact hk a ha

end

end Batch

end Checked
