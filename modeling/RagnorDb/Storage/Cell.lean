import RagnorDb.Storage.Mvcc
import RagnorDb.Lib.Lts

/-!
# One row of the store

A `Cell` is what the three maps hold for one row key: the default values and write records
by timestamp, and the lock.  `Cell.Step` is the row's own state machine, with the four
transitions that the seven store operations are made of, each with everything the code has
checked before it publishes.  The cell invariant is what makes the three maps one
multi-version row.
-/

namespace RagnorDb

open Std

/-- The argument is a complete canonical row-key encoding. -/
def CanonicalKey (key : Bytes) : Prop :=
  ∃ rowKey, decodeRowKey key = .ok rowKey

instance (key : Bytes) : Decidable (CanonicalKey key) :=
  match h : decodeRowKey key with
  | .ok rowKey => isTrue ⟨rowKey, h⟩
  | .error _ => isFalse fun ⟨_, h'⟩ => by cases h.symm.trans h'

/-- The key is the encoding of a row of the table. -/
def InTable (tableId : TableId) (key : Bytes) : Prop :=
  ∃ rowKey, decodeRowKey key = .ok rowKey ∧ rowKey.tableId = tableId

/-- The argument is a canonical encoded row. -/
def DecodableRow (row : Bytes) : Prop :=
  ∃ decoded, decodeRow row = .ok decoded

/-- A write record that is valid for the map timestamp it is stored under. -/
structure WriteRecord.ValidAt (write : WriteRecord) (ts : Timestamp) : Prop where
  stored : write.commitTimestamp = ts
  start_ne_zero : write.startTimestamp ≠ 0
  rollback : write.op = .rollback → write.startTimestamp = ts
  committed : write.op ≠ .rollback → write.startTimestamp < ts

/-- A lock that a prewrite can have installed. -/
structure LockRecord.Valid (lock : LockRecord) : Prop where
  txnId_ne_zero : lock.txnId ≠ 0
  start_ne_zero : lock.startTimestamp ≠ 0
  ttl_ne_zero : lock.ttlMs ≠ 0
  primary : CanonicalKey lock.primaryKey
  op : lock.op ≠ .rollback

theorem WriteRecord.ValidAt.validate_eq_ok {write : WriteRecord} {ts : Timestamp}
    (h : write.ValidAt ts) : write.validate = .ok () := by
  have hstart := h.start_ne_zero
  have hstored := h.stored
  simp only [WriteRecord.validate, Checked.bind_eq_ok, Checked.rejectIf_eq_ok, exists_const]
  cases hop : write.op with
  | rollback =>
    have := h.rollback hop
    simp only [Checked.rejectIf_eq_ok]
    lia
  | put | delete =>
    have := h.committed (by simp [hop])
    simp only [Checked.rejectIf_eq_ok]
    lia

theorem LockRecord.Valid.validate_eq_ok {lock : LockRecord} (h : lock.Valid) :
    lock.validate = .ok () := by
  have hprimary : lock.primaryKey ≠ [] := by
    intro hnil
    obtain ⟨rowKey, hkey⟩ := h.primary
    rw [hnil] at hkey
    cases hkey
  simp only [LockRecord.validate, Checked.bind_eq_ok, Checked.rejectIf_eq_ok, exists_const]
  exact ⟨h.txnId_ne_zero, hprimary, h.start_ne_zero, h.ttl_ne_zero, h.op⟩

/-- The row a mutation stores, if any. -/
def Mutation.row? : Mutation → Option Bytes
  | .put row => some row
  | .delete => none

theorem Mutation.writeKind_ne_rollback (mutation : Mutation) : mutation.writeKind ≠ .rollback := by
  cases mutation <;> simp [writeKind]

/-- A mutation whose row, if any, is canonical. -/
def Mutation.Canonical (mutation : Mutation) : Prop :=
  ∀ row, mutation.row? = some row → DecodableRow row

/-- What the three maps hold for one row key. -/
structure Cell where
  value : Timestamp → Option Bytes
  lock : Option LockRecord
  write : Timestamp → Option WriteRecord

namespace Cell

/-- The cell of a key that no map mentions. -/
def empty : Cell := ⟨fun _ => none, none, fun _ => none⟩

/-- A transaction starting at `startTs` may still write the row: it has no rollback marker
and nothing was committed above its snapshot. -/
structure HistoryOk (c : Cell) (startTs : Timestamp) : Prop where
  no_marker : ∀ w, c.write startTs = some w → w.op ≠ .rollback
  no_newer : ∀ ts w, startTs < ts → c.write ts = some w → w.op = .rollback

/-- The default value at a transaction's start fits the kind of its write: a decodable row
for a Put, none for a Delete. -/
def PayloadOk (value : Option Bytes) : WriteKind → Prop
  | .put => ∃ row, value = some row ∧ DecodableRow row
  | .delete => value = none
  | .rollback => False

/-- Every stored write record lies below `ts`. -/
def WritesBelow (c : Cell) (ts : Timestamp) : Prop :=
  ∀ t w, c.write t = some w → t < ts

/-- What an operation asks of one row. -/
inductive Call where
  | prewrite (lock : LockRecord) (mutation : Mutation)
  | commit (txnId : TxnId) (startTs commitTs : Timestamp)
  | rollback (txnId : TxnId) (startTs : Timestamp)
  | direct (txnId : TxnId) (startTs commitTs : Timestamp) (mutation : Mutation)

/-- The lock, if any, belongs to the transaction. -/
def LockFree (c : Cell) (txnId : TxnId) (startTs : Timestamp) : Prop :=
  ∀ l, c.lock = some l → l.txnId = txnId ∧ l.startTimestamp = startTs

/-- One change of one row, with what the code has checked before publishing it. -/
inductive Step (c : Cell) : Call → Cell → Prop
  | prewrite {lock : LockRecord} {mutation : Mutation}
      (valid : lock.Valid) (kind : lock.op = mutation.writeKind) (row : mutation.Canonical)
      (history : c.HistoryOk lock.startTimestamp) (unlocked : c.lock = none)
      (fresh : c.value lock.startTimestamp = none) :
      Step c (.prewrite lock mutation)
        ⟨Function.update c.value lock.startTimestamp mutation.row?, some lock, c.write⟩
  | commit {lock : LockRecord} {txnId : TxnId} {startTs commitTs : Timestamp}
      (locked : c.lock = some lock) (txn : lock.txnId = txnId)
      (start : lock.startTimestamp = startTs) (after : startTs < commitTs)
      (payload : PayloadOk (c.value startTs) lock.op)
      (history : c.HistoryOk startTs) (newest : c.WritesBelow commitTs) :
      Step c (.commit txnId startTs commitTs)
        ⟨c.value, none, Function.update c.write commitTs (some ⟨startTs, commitTs, lock.op⟩)⟩
  | rollback {txnId : TxnId} {startTs : Timestamp}
      (start_ne_zero : startTs ≠ 0)
      (undecided : ∀ ts w, c.write ts = some w → w.startTimestamp = startTs →
        w.op = .rollback)
      (vacant : c.write startTs = none) (owner : c.LockFree txnId startTs)
      (payload : ∀ l, c.lock = some l → PayloadOk (c.value startTs) l.op)
      (unlocked : c.lock = none → c.value startTs = none) :
      Step c (.rollback txnId startTs)
        ⟨Function.update c.value startTs none, none,
          Function.update c.write startTs (some ⟨startTs, startTs, .rollback⟩)⟩
  | direct {txnId : TxnId} {startTs commitTs : Timestamp} {mutation : Mutation}
      (start_ne_zero : startTs ≠ 0) (after : startTs < commitTs)
      (row : mutation.Canonical) (owner : c.LockFree txnId startTs)
      (kind : ∀ l, c.lock = some l → l.op = mutation.writeKind)
      (payload : ∀ row, c.value startTs = some row → mutation.row? = some row)
      (history : c.HistoryOk startTs) (newest : c.WritesBelow commitTs) :
      Step c (.direct txnId startTs commitTs mutation)
        ⟨Function.update c.value startTs mutation.row?, none,
          Function.update c.write commitTs (some ⟨startTs, commitTs, mutation.writeKind⟩)⟩

/-- A call that the row has already answered: its effect is in place. -/
inductive Replay (c : Cell) : Call → Prop
  | prewrite {lock : LockRecord} {mutation : Mutation}
      (locked : c.lock = some lock) (kind : lock.op = mutation.writeKind)
      (row : c.value lock.startTimestamp = mutation.row?) : Replay c (.prewrite lock mutation)
  | commit {txnId : TxnId} {startTs commitTs : Timestamp} {w : WriteRecord}
      (written : c.write commitTs = some w) (start : w.startTimestamp = startTs)
      (committed : w.op ≠ .rollback) : Replay c (.commit txnId startTs commitTs)
  | rollback {txnId : TxnId} {startTs : Timestamp} {w : WriteRecord}
      (written : c.write startTs = some w) (marker : w.op = .rollback) :
      Replay c (.rollback txnId startTs)
  | direct {txnId : TxnId} {startTs commitTs : Timestamp} {mutation : Mutation}
      (written : c.write commitTs = some ⟨startTs, commitTs, mutation.writeKind⟩)
      (row : c.value startTs = mutation.row?) : Replay c (.direct txnId startTs commitTs mutation)

/-- The answer to a call that succeeds: the row takes the step, or is as the call left it
the first time. -/
def Answers (c : Cell) (call : Call) (c' : Cell) : Prop :=
  c.Step call c' ∨ (c.Replay call ∧ c' = c)

/-- The invariant of one row. -/
structure Inv (c : Cell) : Prop where
  write_valid : ∀ {t w}, c.write t = some w → w.ValidAt t
  start_unique : ∀ {t w t' w'}, c.write t = some w → c.write t' = some w' →
    w.startTimestamp = w'.startTimestamp → t = t'
  lock_valid : ∀ {l}, c.lock = some l → l.Valid
  lock_undecided : ∀ {l t w}, c.lock = some l → c.write t = some w →
    w.startTimestamp ≠ l.startTimestamp
  lock_newest : ∀ {l t w}, c.lock = some l → c.write t = some w → w.op ≠ .rollback →
    t ≤ l.startTimestamp
  lock_payload : ∀ {l}, c.lock = some l → PayloadOk (c.value l.startTimestamp) l.op
  write_payload : ∀ {t w}, c.write t = some w → w.op ≠ .rollback →
    PayloadOk (c.value w.startTimestamp) w.op
  marker_payload : ∀ {t w}, c.write t = some w → w.op = .rollback → c.value t = none
  value_owned : ∀ {s row}, c.value s = some row →
    (∃ l, c.lock = some l ∧ l.startTimestamp = s ∧ l.op = .put) ∨
      ∃ t w, c.write t = some w ∧ w.startTimestamp = s ∧ w.op = .put
  serial : ∀ {t w t' w'}, c.write t = some w → w.op ≠ .rollback → c.write t' = some w' →
    w'.op ≠ .rollback → t < t' → t ≤ w'.startTimestamp

variable {t r : Timestamp} {w : WriteRecord} {op : WriteKind} {row : Bytes} {c' : Cell}
  {call : Call}

theorem Inv.historyOk_of_lock {c : Cell} (h : c.Inv) {l : LockRecord} (hl : c.lock = some l) :
    c.HistoryOk l.startTimestamp where
  no_marker w hw hop := h.lock_undecided hl hw ((h.write_valid hw).rollback hop)
  no_newer ts w hlt hw := by
    by_contra hop
    exact absurd (h.lock_newest hl hw hop) (Nat.not_le.mpr hlt)

theorem inv_empty : empty.Inv := by
  constructor <;> simp [empty]

/-! ## Steps keep the invariant -/

variable {c : Cell} {s cts : Timestamp}

theorem HistoryOk.undecided_of_valid (hh : c.HistoryOk s)
    (hvalid : w.ValidAt t) (hw : c.write t = some w) : w.startTimestamp ≠ s := by
  rintro rfl
  by_cases hop : w.op = .rollback
  · have ht := hvalid.rollback hop
    exact hh.no_marker w (ht ▸ hw) hop
  · exact hop (hh.no_newer t w (hvalid.committed hop) hw)

theorem HistoryOk.undecided (hh : c.HistoryOk s) (h : c.Inv)
    (hw : c.write t = some w) : w.startTimestamp ≠ s :=
  hh.undecided_of_valid (h.write_valid hw) hw

theorem PayloadOk.ne_rollback {v : Option Bytes} (h : PayloadOk v op) : op ≠ .rollback := by
  rintro rfl
  exact h

theorem PayloadOk.put (h : PayloadOk (some row) op) : op = .put := by
  cases op with
  | put => rfl
  | delete => cases h
  | rollback => exact h.elim

theorem PayloadOk.decodable (h : PayloadOk (some row) op) : DecodableRow row := by
  cases h.put
  obtain ⟨_, hrow, hd⟩ := h
  cases hrow
  exact hd

theorem Inv.value_valid (h : c.Inv) (hv : c.value s = some row) : s ≠ 0 ∧ DecodableRow row := by
  rcases h.value_owned hv with ⟨l, hl, rfl, hop⟩ | ⟨t, w, hw, rfl, hop⟩
  · have hpayload := h.lock_payload hl
    rw [hv] at hpayload
    exact ⟨(h.lock_valid hl).start_ne_zero, hpayload.decodable⟩
  · have hpayload := h.write_payload hw (by simp [hop])
    rw [hv] at hpayload
    exact ⟨(h.write_valid hw).start_ne_zero, hpayload.decodable⟩

theorem payloadOk_row {m : Mutation} (h : m.Canonical) : PayloadOk m.row? m.writeKind := by
  cases m with
  | put row => exact ⟨row, rfl, h row rfl⟩
  | delete => rfl

theorem write_of_vacant {d : Option WriteRecord} (hvacant : c.write r = none)
    (hw : c.write t = some w) : Function.update c.write r d t = some w := by
  have hne : t ≠ r := by
    rintro rfl
    rw [hvacant] at hw
    cases hw
  rw [Function.update_of_ne hne]
  exact hw

theorem write_cases_of_update {f : Timestamp → Option WriteRecord} {d : WriteRecord}
    (hw : Function.update f r (some d) t = some w) : (t = r ∧ w = d) ∨ f t = some w := by
  rw [Function.update_apply] at hw
  split at hw
  · next ht => exact .inl ⟨ht, (Option.some.inj hw).symm⟩
  · exact .inr hw

/-- Deciding the transaction starting at `d.startTimestamp`: one record is added where
there was none, and the row's lock, which can only be the transaction's own, goes. -/
theorem Inv.decide (h : c.Inv) {d : WriteRecord} (hvalid : d.ValidAt r) (hvacant : c.write r = none)
    (hundecided : ∀ {t w}, c.write t = some w → w.startTimestamp ≠ d.startTimestamp)
    (hown : ∀ {l}, c.lock = some l → l.startTimestamp = d.startTimestamp)
    (hlast : d.op ≠ .rollback → ∀ {t w}, c.write t = some w → w.op ≠ .rollback →
      t ≤ d.startTimestamp) (hwrite : c'.write = Function.update c.write r (some d))
    (hlock : c'.lock = none) (hvalue : ∀ {s}, s ≠ d.startTimestamp → c'.value s = c.value s)
    (hpayload : d.op ≠ .rollback → PayloadOk (c'.value d.startTimestamp) d.op)
    (hmarker : d.op = .rollback → c'.value d.startTimestamp = none) : c'.Inv := by
  -- A record of the new map is the new one or, at another timestamp, an old one.
  have hcases : ∀ {t w}, c'.write t = some w → (t = r ∧ w = d) ∨ c.write t = some w := by
    intro t w hw
    rw [hwrite] at hw
    exact write_cases_of_update hw
  constructor
  case write_valid =>
    intro t w hw
    rcases hcases hw with ⟨rfl, rfl⟩ | hw
    · exact hvalid
    · exact h.write_valid hw
  case start_unique =>
    intro t w t' w' hw hw' heq
    rcases hcases hw with ⟨ht, hd⟩ | hw <;> rcases hcases hw' with ⟨ht', hd'⟩ | hw'
    · exact ht.trans ht'.symm
    · exact absurd (heq.symm.trans (by rw [hd])) (hundecided hw')
    · exact absurd (heq.trans (by rw [hd'])) (hundecided hw)
    · exact h.start_unique hw hw' heq
  case lock_valid => simp [hlock]
  case lock_undecided => simp [hlock]
  case lock_newest => simp [hlock]
  case lock_payload => simp [hlock]
  case write_payload =>
    intro t w hw hop
    rcases hcases hw with ⟨rfl, rfl⟩ | hw
    · exact hpayload hop
    · rw [hvalue (hundecided hw)]
      exact h.write_payload hw hop
  case marker_payload =>
    intro t w hw hop
    rcases hcases hw with ⟨rfl, rfl⟩ | hw
    · rw [← hvalid.rollback hop]
      exact hmarker hop
    · have hstart := (h.write_valid hw).rollback hop
      rw [hvalue (hstart ▸ hundecided hw)]
      exact h.marker_payload hw hop
  case value_owned =>
    intro s row hrow
    by_cases hs : s = d.startTimestamp
    · subst hs
      have hop : d.op ≠ .rollback := by
        intro hop
        rw [hmarker hop] at hrow
        cases hrow
      have hput : d.op = .put := by
        have hp := hpayload hop
        rw [hrow] at hp
        exact hp.put
      exact .inr ⟨r, d, by simp [hwrite], rfl, hput⟩
    · rw [hvalue hs] at hrow
      rcases h.value_owned hrow with ⟨l, hl, hstart, _⟩ | ⟨t, w, hw, hstart, hop⟩
      · exact absurd (hstart.symm.trans (hown hl)) hs
      · exact .inr ⟨t, w, hwrite ▸ write_of_vacant hvacant hw, hstart, hop⟩
  case serial =>
    intro t w t' w' hw hop hw' hop' htt
    rcases hcases hw with ⟨rfl, rfl⟩ | hw <;> rcases hcases hw' with ⟨ht', hd'⟩ | hw'
    · exact absurd (ht' ▸ htt) (Nat.lt_irrefl _)
    · have hle := hlast hop hw' hop'
      have hlt := hvalid.committed hop
      lia
    · subst hd'
      exact hlast hop' hw hop
    · exact h.serial hw hop hw' hop' htt

theorem WritesBelow.vacant (hb : c.WritesBelow cts) : c.write cts = none := by
  cases hw : c.write cts with
  | none => rfl
  | some => exact absurd (hb _ _ hw) (Nat.lt_irrefl _)

theorem Inv.publish (h : c.Inv) (hs : s ≠ 0) (hlt : s < cts) (hh : c.HistoryOk s)
    (hb : c.WritesBelow cts) (hown : ∀ {l}, c.lock = some l → l.startTimestamp = s)
    (hwrite : c'.write = Function.update c.write cts (some ⟨s, cts, op⟩)) (hlock : c'.lock = none)
    (hvalue : ∀ {s'}, s' ≠ s → c'.value s' = c.value s') (hp : PayloadOk (c'.value s) op) :
    c'.Inv :=
  h.decide (r := cts) (d := ⟨s, cts, op⟩)
    ⟨rfl, hs, fun hop => absurd hop hp.ne_rollback, fun _ => hlt⟩ hb.vacant
    (hh.undecided h) hown
    (fun _ {_ _} hw hop => Nat.le_of_not_lt fun hlt' => hop (hh.no_newer _ _ hlt' hw))
    hwrite hlock hvalue (fun _ => hp) (fun hop => absurd hop hp.ne_rollback)

/-- Installing a lock on an unlocked row, with the default value of its mutation. -/
theorem Inv.install (h : c.Inv) {lock : LockRecord} (hvalid : lock.Valid)
    (hh : c.HistoryOk lock.startTimestamp) (hunlocked : c.lock = none) (hwrite : c'.write = c.write)
    (hlock : c'.lock = some lock) (hvalue : ∀ {s}, s ≠ lock.startTimestamp → c'.value s = c.value s)
    (hp : PayloadOk (c'.value lock.startTimestamp) lock.op) : c'.Inv := by
  constructor
  case write_valid => rw [hwrite]; exact h.write_valid
  case start_unique => rw [hwrite]; exact h.start_unique
  case serial => rw [hwrite]; exact h.serial
  case lock_valid =>
    intro l hl
    cases hlock.symm.trans hl
    exact hvalid
  case lock_undecided =>
    intro l t w hl hw
    cases hlock.symm.trans hl
    exact hh.undecided h (hwrite ▸ hw)
  case lock_newest =>
    intro l t w hl hw hop
    cases hlock.symm.trans hl
    exact Nat.le_of_not_lt fun hlt => hop (hh.no_newer _ _ hlt (hwrite ▸ hw))
  case lock_payload =>
    intro l hl
    cases hlock.symm.trans hl
    exact hp
  case write_payload =>
    intro t w hw hop
    rw [hwrite] at hw
    rw [hvalue (hh.undecided h hw)]
    exact h.write_payload hw hop
  case marker_payload =>
    intro t w hw hop
    rw [hwrite] at hw
    have hstart := (h.write_valid hw).rollback hop
    rw [hvalue (hstart ▸ hh.undecided h hw)]
    exact h.marker_payload hw hop
  case value_owned =>
    intro s row hrow
    by_cases hs : s = lock.startTimestamp
    · subst hs
      rw [hrow] at hp
      exact .inl ⟨lock, hlock, rfl, hp.put⟩
    · rw [hvalue hs] at hrow
      rcases h.value_owned hrow with ⟨l, hl, _⟩ | hw
      · rw [hunlocked] at hl
        cases hl
      · exact .inr (hwrite ▸ hw)

/-- Every step of a row keeps its invariant. -/
theorem Inv.step (h : c.Inv) (hstep : c.Step call c') : c'.Inv := by
  cases hstep with
  | @prewrite lock mutation valid kind row history unlocked fresh =>
    refine h.install valid history unlocked rfl rfl
      (fun hs => Function.update_of_ne hs _ _) ?_
    simp only [Function.update_self, kind]
    exact payloadOk_row row
  | @commit lock txnId startTs commitTs locked txn start after payload history newest =>
    refine h.publish (start ▸ (h.lock_valid locked).start_ne_zero) after history newest ?_
      rfl rfl (fun _ => rfl) payload
    intro l hl
    cases locked.symm.trans hl
    exact start
  | @rollback txnId startTs start_ne_zero undecided vacant owner payload unlocked =>
    have hundecided : ∀ {t w}, c.write t = some w → w.startTimestamp ≠ startTs := by
      intro t w hw hstart
      have hop := undecided t w hw hstart
      rw [← (h.write_valid hw).rollback hop, hstart, vacant] at hw
      cases hw
    exact h.decide (d := ⟨startTs, startTs, .rollback⟩)
      ⟨rfl, start_ne_zero, fun _ => rfl, fun hop => absurd rfl hop⟩ vacant hundecided
      (fun hl => (owner _ hl).2) (fun hop => absurd rfl hop) rfl rfl
      (fun hs' => Function.update_of_ne hs' _ _) (fun hop => absurd rfl hop)
      (fun _ => Function.update_self _ _ _)
  | @direct txnId startTs commitTs mutation start_ne_zero after row owner kind payload
      history newest =>
      refine h.publish start_ne_zero after history newest (fun hl => (owner _ hl).2) rfl rfl
        (fun hs' => Function.update_of_ne hs' _ _) ?_
      simp only [Function.update_self]
      exact payloadOk_row row

theorem Inv.answers (h : c.Inv) (ha : c.Answers call c') : c'.Inv := by
  rcases ha with hstep | ⟨_, rfl⟩
  · exact h.step hstep
  · exact h

/-! ## History only grows -/

/-- Records are never changed or removed, and neither are the values committed records
refer to. -/
structure Extends (c c' : Cell) : Prop where
  write : ∀ {t w}, c.write t = some w → c'.write t = some w
  value : ∀ {t w}, c.write t = some w → w.op ≠ .rollback →
    c'.value w.startTimestamp = c.value w.startTimestamp

theorem Extends.refl (c : Cell) : c.Extends c := ⟨id, fun _ _ => rfl⟩

theorem Extends.trans {c'' : Cell} (h : c.Extends c') (h' : c'.Extends c'') : c.Extends c'' where
  write hw := h'.write (h.write hw)
  value hw hop := (h'.value (h.write hw) hop).trans (h.value hw hop)

theorem Inv.extends_step (h : c.Inv) (hstep : c.Step call c') : c.Extends c' := by
  cases hstep with
  | prewrite valid kind row history =>
    exact ⟨id, fun hw _ => Function.update_of_ne (history.undecided h hw) _ _⟩
  | commit locked txn start after payload history newest =>
    exact ⟨write_of_vacant newest.vacant, fun _ _ => rfl⟩
  | rollback start_ne_zero undecided vacant =>
    refine ⟨write_of_vacant vacant, fun {t w} hw hop => Function.update_of_ne ?_ _ _⟩
    exact fun hs => hop (undecided t w hw hs)
  | direct start_ne_zero after row owner kind payload history newest =>
    exact ⟨write_of_vacant newest.vacant,
      fun hw _ => Function.update_of_ne (history.undecided h hw) _ _⟩

theorem Inv.extends_answers (h : c.Inv) (ha : c.Answers call c') : c.Extends c' := by
  rcases ha with hstep | ⟨_, rfl⟩
  · exact h.extends_step hstep
  · exact .refl _

end Cell

end RagnorDb
