import RagnorDb.Storage.MvccRead

/-!
# Outcomes are final

A row that has been rolled back or committed for a start timestamp keeps that outcome: an
operation that asks for another one fails, and one that asks for the same one again
succeeds and changes nothing.
-/

namespace RagnorDb

open Std Checked

namespace Cell

namespace Call

/-- The start timestamp of the transaction that calls. -/
def startTs : Call → Timestamp
  | .prewrite lock _ => lock.startTimestamp
  | .commit _ s _ => s
  | .rollback _ s => s
  | .direct _ s _ _ => s

/-- The timestamp at which a call commits. -/
def commitTs? : Call → Option Timestamp
  | .prewrite _ _ => none
  | .commit _ _ c => some c
  | .rollback _ _ => none
  | .direct _ _ c _ => some c

def isRollback : Call → Bool
  | .rollback _ _ => true
  | _ => false

/-- The first call asks again for the outcome that the second one decided, under any
transaction id. -/
def Again : Call → Call → Prop
  | .rollback _ s', .rollback _ s => s' = s
  | .commit _ s' c', .commit _ s c | .commit _ s' c', .direct _ s c _ => s' = s ∧ c' = c
  | .direct _ s' c' m', .direct _ s c m => s' = s ∧ c' = c ∧ m' = m
  | _, _ => False

end Call

variable {c c' : Cell} {call call' : Call} {s t : Timestamp} {w : WriteRecord}

theorem Answers.prewritten {lock : LockRecord} {mutation : Mutation}
    (ha : c.Answers (.prewrite lock mutation) c') :
    c'.lock = some lock ∧ c'.value lock.startTimestamp = mutation.row? ∧ c'.write = c.write := by
  rcases ha with hstep | ⟨hreplay, rfl⟩
  · cases hstep with
    | prewrite => exact ⟨rfl, Function.update_self .., rfl⟩
  · cases hreplay with
    | prewrite locked kind row => exact ⟨locked, row, rfl⟩

section

variable (ha : c.Answers call c')
include ha

theorem Answers.eq_of_replay (hr : c.Replay call) : c' = c := by
  rcases ha with hstep | ⟨-, rfl⟩
  · cases hstep with
    | prewrite valid kind row history unlocked =>
      cases hr with
      | prewrite locked => cases unlocked.symm.trans locked
    | commit locked txn start after payload history newest =>
      cases hr with
      | commit written => cases newest.vacant.symm.trans written
    | rollback start_ne_zero undecided vacant =>
      cases hr with
      | rollback written => cases vacant.symm.trans written
    | direct start_ne_zero after row owner kind payload history newest =>
      cases hr with
      | direct written => cases newest.vacant.symm.trans written
  · rfl

theorem Answers.marker (hcall : call.isRollback = true) :
    ∃ w, c'.write call.startTs = some w ∧ w.op = .rollback := by
  rcases ha with hstep | ⟨hreplay, rfl⟩
  · cases hstep with
    | rollback => exact ⟨_, Function.update_self .., rfl⟩
    | _ => cases hcall
  · cases hreplay with
    | rollback written marker => exact ⟨_, written, marker⟩
    | _ => cases hcall

theorem Answers.committed (hcall : call.commitTs? = some t) :
    ∃ w, c'.write t = some w ∧ w.startTimestamp = call.startTs ∧ w.op ≠ .rollback := by
  rcases ha with hstep | ⟨hreplay, rfl⟩
  · cases hstep with
    | commit locked txn start after payload =>
      cases hcall
      exact ⟨_, Function.update_self .., rfl, payload.ne_rollback⟩
    | direct =>
      cases hcall
      exact ⟨_, Function.update_self .., rfl, Mutation.writeKind_ne_rollback _⟩
    | _ => cases hcall
  · cases hreplay with
    | commit written start committed =>
      cases hcall
      exact ⟨_, written, start, committed⟩
    | direct written =>
      cases hcall
      exact ⟨_, written, rfl, Mutation.writeKind_ne_rollback _⟩
    | _ => cases hcall

/-- A row that has decided can be asked again. -/
theorem Answers.replay_again (hagain : call'.Again call) : c'.Replay call' := by
  cases call with
  | prewrite => cases call' <;> exact hagain.elim
  | rollback txn s =>
    cases call' with
    | rollback txn' s' =>
      cases (hagain : s' = s)
      obtain ⟨w, hw, hop⟩ := ha.marker rfl
      exact .rollback hw hop
    | _ => exact hagain.elim
  | commit txn s ts =>
    cases call' with
    | commit txn' s' ts' =>
      obtain ⟨rfl, rfl⟩ : s' = s ∧ ts' = ts := hagain
      obtain ⟨w, hw, hs, hop⟩ := ha.committed rfl
      exact .commit hw hs hop
    | _ => exact hagain.elim
  | direct txn s ts m =>
    have hreplay : c'.Replay (.direct txn s ts m) := by
      rcases ha with hstep | ⟨hr, rfl⟩
      · cases hstep with
        | direct => exact .direct (Function.update_self ..) (Function.update_self ..)
      · exact hr
    cases hreplay with
    | direct written row =>
      cases call' with
      | commit txn' s' ts' =>
        obtain ⟨rfl, rfl⟩ : s' = s ∧ ts' = ts := hagain
        exact .commit written rfl m.writeKind_ne_rollback
      | direct txn' s' ts' m' =>
        obtain ⟨rfl, rfl, rfl⟩ : s' = s ∧ ts' = ts ∧ m' = m := hagain
        exact .direct written row
      | _ => exact hagain.elim

end

theorem Replay.extends (hr : c.Replay call') (hagain : call'.Again call) (he : c.Extends c') :
    c'.Replay call' := by
  cases hr with
  | prewrite => cases call <;> exact hagain.elim
  | commit written start committed => exact .commit (he.write written) start committed
  | rollback written marker => exact .rollback (he.write written) marker
  | @direct _ _ _ m written row =>
    exact .direct (he.write written) ((he.value written m.writeKind_ne_rollback).trans row)

/-! ## What a row says about a transaction -/

/-- The transaction starting at `s` has committed the row at `t`. -/
def Committed (c : Cell) (s t : Timestamp) : Prop :=
  ∃ w, c.write t = some w ∧ w.startTimestamp = s ∧ w.op ≠ .rollback

/-- The transaction starting at `s` has been rolled back on the row. -/
def RolledBack (c : Cell) (s : Timestamp) : Prop :=
  ∃ w, c.write s = some w ∧ w.op = .rollback

theorem Extends.committed (h : c.Extends c') (hc : c.Committed s t) : c'.Committed s t := by
  obtain ⟨w, hw, hs⟩ := hc
  exact ⟨w, h.write hw, hs⟩

theorem Extends.rolledBack (h : c.Extends c') (hr : c.RolledBack s) : c'.RolledBack s := by
  obtain ⟨w, hw, hop⟩ := hr
  exact ⟨w, h.write hw, hop⟩

theorem Inv.not_rolledBack (h : c.Inv) (hc : c.Committed s t) : ¬ c.RolledBack s := by
  obtain ⟨w, hw, hs, hop⟩ := hc
  rintro ⟨w', hw', hop'⟩
  have ht := h.start_unique hw hw' (hs.trans ((h.write_valid hw').rollback hop').symm)
  subst ht
  cases hw.symm.trans hw'
  exact hop hop'

/-- A record that a call has added is the one the call asks for. -/
theorem Step.write_cases (h : c.Step call c') (hw : c'.write t = some w) :
    c.write t = some w ∨ w.startTimestamp = call.startTs ∧
      ((w.op ≠ .rollback ∧ call.commitTs? = some t) ∨
        (w.op = .rollback ∧ call.isRollback = true ∧ t = call.startTs)) := by
  cases h with
  | prewrite => exact .inl hw
  | commit locked txn start after payload =>
    rcases write_cases_of_update hw with ⟨rfl, rfl⟩ | hold
    · exact .inr ⟨rfl, .inl ⟨payload.ne_rollback, rfl⟩⟩
    · exact .inl hold
  | rollback =>
    rcases write_cases_of_update hw with ⟨rfl, rfl⟩ | hold
    · exact .inr ⟨rfl, .inr ⟨rfl, rfl, rfl⟩⟩
    · exact .inl hold
  | direct =>
    rcases write_cases_of_update hw with ⟨rfl, rfl⟩ | hold
    · exact .inr ⟨rfl, .inl ⟨Mutation.writeKind_ne_rollback _, rfl⟩⟩
    · exact .inl hold

theorem Inv.committed_answers (h : c.Inv) (ha : c.Answers call c') :
    c'.Committed s t ↔ c.Committed s t ∨ (call.startTs = s ∧ call.commitTs? = some t) := by
  constructor
  · rintro ⟨w, hw, rfl, hop⟩
    rcases ha with hstep | ⟨-, rfl⟩
    · rcases hstep.write_cases hw with hold | ⟨hstart, ⟨-, ht⟩ | ⟨hrb, -⟩⟩
      · exact .inl ⟨w, hold, rfl, hop⟩
      · exact .inr ⟨hstart.symm, ht⟩
      · exact absurd hrb hop
    · exact .inl ⟨w, hw, rfl, hop⟩
  · rintro (hold | ⟨rfl, ht⟩)
    · exact (h.extends_answers ha).committed hold
    · exact ha.committed ht

theorem Inv.rolledBack_answers (h : c.Inv) (ha : c.Answers call c') :
    c'.RolledBack s ↔ c.RolledBack s ∨ (call.startTs = s ∧ call.isRollback = true) := by
  constructor
  · rintro ⟨w, hw, hop⟩
    rcases ha with hstep | ⟨-, rfl⟩
    · rcases hstep.write_cases hw with hold | ⟨-, ⟨hrb, -⟩ | ⟨-, hcall, ht⟩⟩
      · exact .inl ⟨w, hold, hop⟩
      · exact absurd hop hrb
      · exact .inr ⟨ht.symm, hcall⟩
    · exact .inl ⟨w, hw, hop⟩
  · rintro (hold | ⟨rfl, hcall⟩)
    · exact (h.extends_answers ha).rolledBack hold
    · exact ha.marker hcall

/-- After a rollback at `s` the row answers only rollbacks at `s`. -/
theorem Inv.not_answers_of_marker (h : c.Inv) (hw : c.write s = some w) (hop : w.op = .rollback)
    (hs : call.startTs = s) (hcall : call.isRollback = false) : ¬ c.Answers call c' := by
  intro ha
  have hw' := (h.extends_answers ha).write hw
  cases call with
  | prewrite =>
    have hstart := ((h.answers ha).write_valid hw').rollback hop
    exact (h.answers ha).lock_undecided ha.prewritten.1 hw' (hstart.trans hs.symm)
  | rollback => cases hcall
  | commit | direct =>
    have hcommitted := (h.committed_answers ha).mpr (.inr ⟨hs, rfl⟩)
    exact (h.answers ha).not_rolledBack hcommitted ⟨w, hw', hop⟩

/-- After a commit of the transaction starting at `s` the row answers no rollback at `s`
and no commit at another timestamp. -/
theorem Inv.not_answers_of_committed (h : c.Inv) (hw : c.write t = some w)
    (hs : call.startTs = w.startTimestamp) (hop : w.op ≠ .rollback)
    (hcall : call.isRollback = true ∨ ∃ t', call.commitTs? = some t' ∧ t' ≠ t) :
    ¬ c.Answers call c' := by
  intro ha
  have hw' := (h.extends_answers ha).write hw
  rcases hcall with hcall | ⟨t', hcall, hne⟩
  · have hmarker := (h.rolledBack_answers ha).mpr (.inr ⟨hs, hcall⟩)
    exact (h.answers ha).not_rolledBack ⟨w, hw', rfl, hop⟩ hmarker
  · obtain ⟨_, hnew, hstart, -⟩ := (h.committed_answers ha).mpr (.inr ⟨hs, hcall⟩)
    exact hne ((h.answers ha).start_unique hnew hw' hstart)

/-! ## The transaction that has claimed a row -/

/-- The transaction that a call is made for. -/
def Call.txnId : Call → TxnId
  | .prewrite lock _ => lock.txnId
  | .commit txnId _ _ | .rollback txnId _ | .direct txnId _ _ _ => txnId

/-- The row is locked for the transaction, or holds an outcome of its start timestamp. -/
def ClaimedBy (c : Cell) (txnId : TxnId) (s : Timestamp) : Prop :=
  (∃ l, c.lock = some l ∧ l.txnId = txnId ∧ l.startTimestamp = s) ∨
    ∃ t w, c.write t = some w ∧ w.startTimestamp = s

variable {txnId : TxnId}

theorem Inv.claimedBy_answers (h : c.Inv) (ha : c.Answers call c') (hc : c.ClaimedBy txnId s) :
    c'.ClaimedBy txnId s := by
  rcases hc with ⟨l, hl, htxn, hs⟩ | ⟨t, w, hw, hs⟩
  · rcases ha with hstep | ⟨-, rfl⟩
    · cases hstep with
      | prewrite _ _ _ _ unlocked =>
        rw [unlocked] at hl
        cases hl
      | commit locked _ start =>
        cases locked.symm.trans hl
        exact .inr ⟨_, _, Function.update_self .., start.symm.trans hs⟩
      | rollback _ _ _ owner | direct _ _ _ owner =>
        exact .inr ⟨_, _, Function.update_self .., (owner l hl).2.symm.trans hs⟩
    · exact .inl ⟨l, hl, htxn, hs⟩
  · exact .inr ⟨t, w, (h.extends_answers ha).write hw, hs⟩

/-- Until a claimed row has a committed record of the start timestamp, only the transaction
that has claimed it can give it one. -/
theorem Inv.txnId_of_claimedBy (h : c.Inv) (ha : c.Answers call c') (hc : c.ClaimedBy txnId s)
    (hno : ∀ t, ¬ c.Committed s t) (hs : call.startTs = s) (ht : call.commitTs? = some t) :
    call.txnId = txnId := by
  subst hs
  rcases ha with hstep | ⟨hreplay, -⟩
  · rcases hc with ⟨l, hl, htxn, -⟩ | ⟨t', w, hw, hs⟩
    · cases hstep with
      | prewrite | rollback => cases ht
      | commit locked txn =>
        cases locked.symm.trans hl
        exact txn.symm.trans htxn
      | direct _ _ _ owner => exact (owner l hl).1.symm.trans htxn
    · -- The outcome is a rollback marker, and the call has found none.
      have hmarker : w.op = .rollback := by
        by_contra hop
        exact hno t' ⟨w, hw, hs, hop⟩
      have hstart : t' = call.startTs := ((h.write_valid hw).rollback hmarker).symm.trans hs
      subst hstart
      cases hstep with
      | prewrite | rollback => cases ht
      | commit _ _ _ _ _ history | direct _ _ _ _ _ _ history =>
        exact absurd hmarker (history.no_marker w hw)
  · cases hreplay with
    | prewrite | rollback => cases ht
    | commit written start committed => exact absurd ⟨_, written, start, committed⟩ (hno _)
    | direct written =>
      exact absurd ⟨_, written, rfl, Mutation.writeKind_ne_rollback _⟩ (hno _)

theorem Inv.prewrite_claims {lock : LockRecord} {mutation : Mutation} (h : c.Inv)
    (ha : c.Answers (.prewrite lock mutation) c') :
    c'.ClaimedBy lock.txnId lock.startTimestamp ∧ ∀ t, ¬ c'.Committed lock.startTimestamp t := by
  refine ⟨.inl ⟨lock, ha.prewritten.1, rfl, rfl⟩, ?_⟩
  rintro t ⟨w, hw, hs, -⟩
  exact (h.answers ha).lock_undecided ha.prewritten.1 hw hs

end Cell

namespace MvccOp

open InMemoryMvcc

variable {st st' st₁ st₂ : InMemoryMvcc} {op op' : MvccOp} {k : Bytes} {call : Cell.Call}
  {s t : Timestamp}

theorem exec_error_of_not_answers (h : st.Inv) (hcall : op.call k = some call)
    (hno : ∀ c', ¬ (st.cell k).Answers call c') : ∃ e, op.exec.run st = .error e st := by
  cases hx : op.exec.run st with
  | ok =>
    exact absurd ((answered_of_exec h.cell h.noEmpty hx).answers hcall).2 (hno _)
  | error e st' =>
    cases exec_error op st e st' hx
    exact ⟨e, rfl⟩

/-- The operation asks the row to commit the transaction starting at `s` at `t`. -/
def Commits (op : MvccOp) (k : Bytes) (s t : Timestamp) : Prop :=
  ∃ call, op.call k = some call ∧ call.startTs = s ∧ call.commitTs? = some t

/-- The operation asks the row to roll the transaction starting at `s` back. -/
def RollsBack (op : MvccOp) (k : Bytes) (s : Timestamp) : Prop :=
  ∃ call, op.call k = some call ∧ call.startTs = s ∧ call.isRollback = true

theorem committed_exec (h : st.Inv) (hx : op.exec.run st = .ok () st') :
    (st'.cell k).Committed s t ↔ (st.cell k).Committed s t ∨ op.Commits k s t := by
  have ha := answered_of_exec h.cell h.noEmpty hx
  unfold Commits
  cases hcall : op.call k with
  | none => simp [ha.frame hcall]
  | some => simp [(h.cell k).committed_answers (ha.answers hcall).2]

theorem rolledBack_exec (h : st.Inv) (hx : op.exec.run st = .ok () st') :
    (st'.cell k).RolledBack s ↔ (st.cell k).RolledBack s ∨ op.RollsBack k s := by
  have ha := answered_of_exec h.cell h.noEmpty hx
  unfold RollsBack
  cases hcall : op.call k with
  | none => simp [ha.frame hcall]
  | some => simp [(h.cell k).rolledBack_answers (ha.answers hcall).2]

theorem exec_of_replay (h : st.Inv) (hargs : op.ArgsOk)
    (hrows : ∀ k call, op.call k = some call → CanonicalKey k ∧ (st.cell k).Replay call) :
    op.exec.run st = .ok () st := by
  have hacceptable : op.Acceptable st :=
    ⟨fun k call hc => ⟨(hrows k call hc).1, _, .inr ⟨(hrows k call hc).2, rfl⟩⟩,
      fun _ _ _ _ _ => .inl fun k call hc => (hrows k call hc).2⟩
  obtain ⟨st', hx⟩ := exec_of_acceptable h.cell hargs hacceptable
  have ha := answered_of_exec h.cell h.noEmpty hx
  have hsame : st' = st := by
    refine ha.noEmpty.ext h.noEmpty fun k => ?_
    cases hc : op.call k with
    | none => exact ha.frame hc
    | some call => exact (ha.answers hc).2.eq_of_replay (hrows k call hc).2
  rw [hx, hsame]

/-- The first operation only asks again for outcomes that the second one decided. -/
def Repeats (op' op : MvccOp) : Prop :=
  op'.ArgsOk ∧ ∀ k call', op'.call k = some call' →
    ∃ call, op.call k = some call ∧ call'.Again call

/-- The operations that decide outcomes repeat themselves. -/
theorem repeats_self (hargs : op.ArgsOk) (hcall : op.call k = some call)
    (hdecides : call.isRollback = true ∨ call.commitTs?.isSome) : op.Repeats op := by
  refine ⟨hargs, fun k' call' hcall' => ⟨call', hcall', ?_⟩⟩
  have hprewrite : ∀ l m, call ≠ .prewrite l m := by
    rintro l m rfl
    rcases hdecides with h | h <;> cases h
  cases op with
  | commitBatch =>
    obtain ⟨m, -, rfl⟩ := Option.map_eq_some_iff.mp hcall'
    exact ⟨rfl, rfl, rfl⟩
  | prewrite =>
    obtain ⟨-, heq⟩ := Option.ite_none_right_eq_some.mp hcall
    exact absurd (Option.some.inj heq).symm (hprewrite _ _)
  | prewriteBatch =>
    obtain ⟨m, -, heq⟩ := Option.map_eq_some_iff.mp hcall
    exact absurd heq.symm (hprewrite _ _)
  | commitIntent t s c key | commitIntentsBatch t s c keys =>
    obtain ⟨-, heq⟩ := Option.ite_none_right_eq_some.mp hcall'
    cases heq
    exact ⟨rfl, rfl⟩
  | rollbackIntent t s key | rollbackIntentsBatch t s keys =>
    obtain ⟨-, heq⟩ := Option.ite_none_right_eq_some.mp hcall'
    cases heq
    rfl

theorem exec_of_repeats (h : mvcc.Reachable st) (hok : op.exec.run st = .ok () st₁)
    {ops : List MvccOp} (hsteps : mvcc.Steps st₁ ops st₂) (hrep : op'.Repeats op) :
    op'.exec.run st₂ = .ok () st₂ := by
  have hinv := inv_of_reachable h
  have ha := answered_of_exec hinv.cell hinv.noEmpty hok
  have hreach : mvcc.Reachable st₁ := h.step (after_of_exec hok)
  refine exec_of_replay (inv_of_reachable (hreach.steps hsteps)) hrep.1 fun k call' hcall' => ?_
  obtain ⟨call, hcall, hagain⟩ := hrep.2 k call' hcall'
  obtain ⟨hk, hanswers⟩ := ha.answers hcall
  exact ⟨hk, (hanswers.replay_again hagain).extends hagain (extends_of_steps hreach hsteps k)⟩

/-- The outcome of a transaction on a row is final.  After a successful rollback at `s`,
whatever else has run, every prewrite and commit of the row at `s` fails and changes
nothing; after a successful commit at `c`, so does every rollback at `s` and every commit
at another timestamp.  Asking again for the outcome, by the same operation or by one that
names some of its rows, succeeds and changes nothing. -/
theorem outcome_final (h : mvcc.Reachable st) (hcall : op.call k = some call)
    (hok : op.exec.run st = .ok () st₁) {ops : List MvccOp} (hsteps : mvcc.Steps st₁ ops st₂) :
    (call.isRollback = true → ∀ (op' : MvccOp) (call' : Cell.Call), op'.call k = some call' →
        call'.startTs = call.startTs → call'.isRollback = false →
          ∃ e, op'.exec.run st₂ = .error e st₂) ∧
    (∀ c, call.commitTs? = some c → ∀ (op' : MvccOp) (call' : Cell.Call), op'.call k = some call' →
        call'.startTs = call.startTs →
        (call'.isRollback = true ∨ ∃ c', call'.commitTs? = some c' ∧ c' ≠ c) →
        ∃ e, op'.exec.run st₂ = .error e st₂) ∧
    (call.isRollback = true ∨ call.commitTs?.isSome → op.exec.run st₂ = .ok () st₂) ∧
    ∀ op' : MvccOp, op'.Repeats op → op'.exec.run st₂ = .ok () st₂ := by
  have hinv := inv_of_reachable h
  have ha := answered_of_exec hinv.cell hinv.noEmpty hok
  have hreach : mvcc.Reachable st₁ := h.step (after_of_exec hok)
  have hinv₂ := inv_of_reachable (hreach.steps hsteps)
  have hext := extends_of_steps hreach hsteps k
  have hanswers := (ha.answers hcall).2
  refine ⟨?_, ?_, fun hdecides => ?_, fun op' => exec_of_repeats h hok hsteps⟩
  · intro hrollback op' call' hcall' hs hne
    obtain ⟨w, hw, hop⟩ := hanswers.marker hrollback
    exact exec_error_of_not_answers hinv₂ hcall' fun c' =>
      (hinv₂.cell k).not_answers_of_marker (hext.write hw) hop hs hne
  · intro c hc op' call' hcall' hs hother
    obtain ⟨w, hw, hstart, hop⟩ := hanswers.committed hc
    exact exec_error_of_not_answers hinv₂ hcall' fun c' =>
      (hinv₂.cell k).not_answers_of_committed (hext.write hw) (hs.trans hstart.symm) hop hother
  · exact exec_of_repeats h hok hsteps (repeats_self ha.args hcall hdecides)

/-- A rollback at 5, then another transaction that commits on the row, then the late
prewrite of the first one. -/
theorem outcome_final_late_prewrite :
    let rollback := rollbackIntent 5 5 sampleKey
    let later := [prewrite 7 7 sampleKey (.put sampleRow) sampleKey 100,
      .commitIntent 7 7 8 sampleKey]
    let st := afterAll later (rollback.after .new)
    (∃ e, (prewrite 5 5 sampleKey .delete sampleKey 100).exec.run st = .error e st) ∧
      rollback.exec.run st = .ok () st := by
  intro rollback later st
  have hcall : rollback.call sampleKey = some (.rollback 5 5) := by simp [rollback, call]
  have hlate : (prewrite 5 5 sampleKey .delete sampleKey 100).call sampleKey =
      some (.prewrite (prewriteLock 5 5 .delete sampleKey 100) .delete) := by simp [call]
  have hok : rollback.exec.run .new = .ok () (rollback.after .new) :=
    exec_of_succeeds (by decide +kernel)
  have hfinal := outcome_final (.of_init rfl) hcall hok (steps_afterAll later _)
  exact ⟨hfinal.1 rfl _ _ hlate rfl rfl, hfinal.2.2.1 (.inl rfl)⟩

end MvccOp

end RagnorDb
