import RagnorDb.Storage.MvccFinality

/-!
# A held lock freezes its row

While a transaction holds the lock of a row, a call of another transaction on that row is refused or
finds its effect already in place.  So the staged row, the lock and the whole write history of the
row stay as the prewrite left them, and the commit that the prewrite has prepared goes through.
-/

namespace RagnorDb

open Std Checked

namespace Cell

variable {c c' : Cell} {call : Call} {lock : LockRecord}

theorem Answers.eq_of_locked (ha : c.Answers call c') (hlock : c.lock = some lock)
    (hother : call.startTs ≠ lock.startTimestamp) : c' = c := by
  rcases ha with hstep | ⟨-, rfl⟩
  · cases hstep with
    | prewrite valid kind row history unlocked => cases unlocked.symm.trans hlock
    | commit locked txn start =>
      cases locked.symm.trans hlock
      exact absurd start.symm hother
    | rollback start_ne_zero undecided vacant owner | direct start_ne_zero after row owner =>
      exact absurd (owner lock hlock).2.symm hother
  · rfl

theorem Inv.commit_step (h : c.Inv) (hlock : c.lock = some lock) {commitTs : Timestamp}
    (hafter : lock.startTimestamp < commitTs) (hnewest : c.WritesBelow commitTs) :
    ∃ c', c.Step (.commit lock.txnId lock.startTimestamp commitTs) c' :=
  ⟨_, .commit hlock rfl rfl hafter (h.lock_payload hlock) (h.historyOk_of_lock hlock) hnewest⟩

end Cell

namespace MvccOp

open InMemoryMvcc

variable {st st₁ st₂ : InMemoryMvcc} {k : Bytes}
variable {op : MvccOp} {lock : LockRecord}

/-- The start timestamp of the transaction that an operation is made for. -/
def startTs : MvccOp → Timestamp
  | .commitBatch _ s _ _ => s
  | .prewrite _ s _ _ _ _ => s
  | .prewriteBatch _ s _ _ _ => s
  | .commitIntent _ s _ _ => s
  | .commitIntentsBatch _ s _ _ => s
  | .rollbackIntent _ s _ => s
  | .rollbackIntentsBatch _ s _ => s

theorem startTs_of_call {call : Cell.Call} (h : op.call k = some call) :
    call.startTs = op.startTs := by
  cases op with
  | commitBatch | prewriteBatch =>
    obtain ⟨m, -, rfl⟩ := Option.map_eq_some_iff.mp h
    rfl
  | _ =>
    obtain ⟨-, heq⟩ := Option.ite_none_right_eq_some.mp h
    cases heq
    rfl

theorem cell_after_of_locked (h : st.Inv) (hlock : (st.cell k).lock = some lock)
    (hother : op.startTs ≠ lock.startTimestamp) : (op.after st).cell k = st.cell k := by
  rcases h.after_cases op with hsame | ⟨-, ha⟩
  · rw [hsame]
  · cases hcall : op.call k with
    | none => exact ha.frame hcall
    | some =>
      exact (ha.answers hcall).2.eq_of_locked hlock ((startTs_of_call hcall).trans_ne hother)

theorem cell_of_steps_of_locked (h : mvcc.Reachable st)
    (hlock : (st.cell k).lock = some lock) {ops : List MvccOp} (hsteps : mvcc.Steps st ops st₁)
    (hothers : ∀ op ∈ ops, op.startTs ≠ lock.startTimestamp) : st₁.cell k = st.cell k := by
  induction hsteps with
  | nil => rfl
  | cons hstep _ ih =>
    have hreach := h.step hstep
    cases hstep
    have hcell := cell_after_of_locked (inv_of_reachable h) hlock (hothers _ List.mem_cons_self)
    rw [← hcell] at hlock ⊢
    exact ih hreach hlock fun op hop => hothers op (List.mem_cons_of_mem _ hop)

/-- A prewrite that has succeeded holds.  Whatever other transactions do afterwards, the lock, the
staged row and the recorded writes of the key stay as they are, and the commit of the prewrite
succeeds at every timestamp above its start and above the writes that were recorded. -/
theorem prewrite_holds (h : mvcc.Reachable st) {t : TxnId} {s : Timestamp} {m : Mutation}
    {pk : Bytes} {ttl : Nat} (hprewrite : (prewrite t s k m pk ttl).exec.run st = .ok () st₁)
    {ops : List MvccOp} (hsteps : mvcc.Steps st₁ ops st₂) (hothers : ∀ op ∈ ops, op.startTs ≠ s) :
    st₂.locks[k]? = some (prewriteLock t s m pk ttl) ∧ st₂.default.lookup k s = m.row? ∧
      st₂.writes.lookup k = st.writes.lookup k ∧
      ∀ c, s < c → (∀ ts w, st.writes.lookup k ts = some w → ts < c) →
        ∃ st₃, (commitIntent t s c k).exec.run st₂ = .ok () st₃ := by
  have hinv := inv_of_reachable h
  have hreach : mvcc.Reachable st₁ := h.step (after_of_exec hprewrite)
  have ha := answered_of_exec hinv.cell hinv.noEmpty hprewrite
  obtain ⟨hk, hanswers⟩ := ha.answers (if_pos rfl)
  obtain ⟨hlock, hrow, hwrite⟩ := hanswers.prewritten
  have hcell := cell_of_steps_of_locked hreach hlock hsteps hothers
  rw [← hcell] at hlock hrow hwrite
  refine ⟨hlock, hrow, hwrite, fun c hc hnewest => ?_⟩
  have hinv₂ := inv_of_reachable (hreach.steps hsteps)
  have hbelow : (st₂.cell k).WritesBelow c := by
    intro ts w hw
    rw [hwrite] at hw
    exact hnewest ts w hw
  obtain ⟨c', hstep⟩ := (hinv₂.cell k).commit_step hlock hc hbelow
  obtain ⟨ht, hs, -⟩ := ha.args
  refine exec_of_acceptable hinv₂.cell ⟨ht, hs, hc⟩ ⟨fun k' call hcall => ?_, by rintro _ _ _ _ ⟨⟩⟩
  obtain ⟨rfl, heq⟩ := Option.ite_none_right_eq_some.mp hcall
  cases heq
  exact ⟨hk, c', .inl hstep⟩

/-- Another transaction tries to roll the row back, to overwrite it and to commit it directly. -/
theorem prewrite_holds_sample :
    let st := afterAll [.prewrite 5 5 sampleKey (.put sampleRow) sampleKey 100] .new
    let others := [rollbackIntent 7 7 sampleKey,
      .prewrite 7 7 sampleKey .delete sampleKey 100,
      .commitBatch 8 8 9 ((∅ : Mutations).insert sampleKey .delete)]
    ∃ st₃, (commitIntent 5 5 6 sampleKey).exec.run (afterAll others st) = .ok () st₃ := by
  intro st others
  have hprewrite : (prewrite 5 5 sampleKey (.put sampleRow) sampleKey 100).exec.run .new =
      .ok () st := exec_of_succeeds (by decide +kernel)
  refine (prewrite_holds (.of_init rfl) hprewrite (steps_afterAll others st) ?_).2.2.2 6
    (by decide) ?_
  · simp [others, startTs]
  · intro ts w hw
    simp [new] at hw

end MvccOp

end RagnorDb
