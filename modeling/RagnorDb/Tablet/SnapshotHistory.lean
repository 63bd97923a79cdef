import RagnorDb.Lib.Lts
import RagnorDb.Tablet.SnapshotStore

/-!
# Histories of one replica's snapshot files

The snapshot files of one replica over its whole life: identities it reserves, images it
publishes under them, images it receives and publishes under the identity that the sender's
allocator chose (`send_snapshot` rewrites `replica_id` only), durable pointer updates, prunes
for the newest durable pointer, and restarts.  A restart forgets a reserved identity that no
image was published under; a crash inside a prune leaves any part of it done.
-/

namespace RagnorDb.SnapshotHistory

open Std Checked FileTabletSnapshotStore OrderedMap

variable {files : ExtTreeMap String TabletSnapshotImage} {fileName : String}

structure State where
  store : FileTabletSnapshotStore
  /-- The identity reserved for the image that is being generated. -/
  allocated : Option Nat
  /-- The image that the newest durable pointer was written for. -/
  durable : Option TabletSnapshotImage
  /-- Every image that was ever published under its name. -/
  published : List TabletSnapshotImage

inductive Action where
  | allocate
  | publishLocal (image : TabletSnapshotImage)
  | publishReceived (image : TabletSnapshotImage)
  | persistPointer (image : TabletSnapshotImage)
  | prune
  | crashInPrune (removed : List String)
  | restart

variable (format : SnapshotFileFormat) (owner : SnapshotOwner)

namespace State

/-- The history after an image was offered to the store. -/
def publish (self : State) (image : TabletSnapshotImage) : State :=
  match (FileTabletSnapshotStore.publish format image).run self.store with
  | .ok _ store => { self with store, published := image :: self.published }
  | .error _ store => { self with store }

theorem publish_forget (self : State) (image : TabletSnapshotImage) :
    { self.publish format image with allocated := none } =
      ({ self with allocated := none } : State).publish format image := by
  unfold publish
  cases (FileTabletSnapshotStore.publish format image).run self.store <;> rfl

end State

/-- One step of the replica.  The images it publishes carry its own group, replica and
tablet; a pointer is written for an image whose file is in the directory. -/
def next (self : State) : Action → Option State
  | .allocate =>
    match (allocateSnapshotId owner).run self.store with
    | .ok id store => some { self with store, allocated := some id }
    | .error _ store => some { self with store }
  | .publishLocal image =>
    if image.metadata.owner = owner ∧ self.allocated = some image.metadata.snapshotId.val then
      some { self.publish format image with allocated := none }
    else none
  | .publishReceived image =>
    if image.metadata.owner = owner then some (self.publish format image) else none
  | .persistPointer image =>
    if image ∈ self.published ∧ image.metadata.fileName ∈ self.store.files then
      some { self with durable := some image }
    else none
  | .prune =>
    self.durable.map fun image =>
      { self with store := after (pruneOlderSnapshots format image.pointer) self.store }
  | .crashInPrune removed =>
    match self.durable with
    | some image =>
      if removed ⊆ self.store.olderSnapshots image.pointer then
        some { self with store := self.store.removeFiles removed, allocated := none }
      else none
    | none => none
  | .restart => some { self with allocated := none }

/-- A replica starts without a file, an allocator state or a pointer of its own. -/
structure Init (s : State) : Prop where
  files : ∀ fileName ∈ s.store.files, owner.snapshotIdOf fileName = none
  allocator : s.store.allocators[owner]? = none
  allocated : s.allocated = none
  durable : s.durable = none
  published : s.published = []

def system : Lts State Action :=
  .ofNext (Init owner) (next format owner)

/-- A received image takes a free name only where its identity is neither one that another
image was published under, nor the one in flight, nor one that the allocator state of this
replica is yet to hand out. -/
def ReceiptFits (s : State) : Action → Prop
  | .publishReceived image => image.metadata.fileName ∉ s.store.files →
      (∀ other ∈ s.published,
          other.metadata.snapshotId = image.metadata.snapshotId → other = image) ∧
        s.allocated ≠ some image.metadata.snapshotId.val ∧
        ∀ nextId ∈ s.store.allocators[owner]?, image.metadata.snapshotId.val < nextId
  | _ => True

instance (s : State) (a : Action) : Decidable (ReceiptFits owner s a) := by
  cases a <;> unfold ReceiptFits <;> infer_instance

/-! ## The invariant -/

/-- What holds in every state of a history whose receipts fit. -/
structure Inv (s : State) : Prop where
  /-- The replica's files are published images under their names. -/
  file : ∀ fileName image, s.store.files[fileName]? = some image →
    (owner.snapshotIdOf fileName).isSome → image ∈ s.published ∧ image.metadata.fileName = fileName
  own : ∀ image ∈ s.published, image.metadata.owner = owner
  checked : ∀ image ∈ s.published, s.store.checkPublication format image = .ok ()
  unique : ∀ a ∈ s.published, ∀ b ∈ s.published,
    a.metadata.snapshotId = b.metadata.snapshotId → a = b
  /-- The identity in flight is unused, and the allocator state is past it. -/
  inFlight : ∀ id, s.allocated = some id →
    (∀ image ∈ s.published, image.metadata.snapshotId.val ≠ id) ∧
    ∃ nextId, s.store.allocators[owner]? = some nextId ∧ id < nextId
  /-- The allocator state is past every used identity ... -/
  below : ∀ nextId, s.store.allocators[owner]? = some nextId →
    ∀ image ∈ s.published, image.metadata.snapshotId.val < nextId
  /-- ... and while there is none, a file of the directory has the largest one. -/
  retained : s.store.allocators[owner]? = none → ∀ image ∈ s.published,
    ∃ kept ∈ s.published, kept.metadata.fileName ∈ s.store.files ∧
      image.metadata.snapshotId ≤ kept.metadata.snapshotId
  durable : ∀ image, s.durable = some image →
    image ∈ s.published ∧ image.metadata.fileName ∈ s.store.files

variable {format owner} {s : State} {image : TabletSnapshotImage}

namespace Inv

variable {id : Nat}

theorem of_init (h : Init owner s) : Inv format owner s := by
  constructor
  case file =>
    intro fileName image hfile hid
    rw [h.files fileName (mem_of_getElem? hfile)] at hid
    cases hid
  all_goals simp [h.published, h.allocated, h.durable, h.allocator]

theorem isSome_snapshotIdOf (himage : image.metadata.owner = owner) :
    owner.snapshotIdOf image.metadata.fileName = some image.metadata.snapshotId.val :=
  TabletSnapshotMetadata.snapshotIdOf_fileName.mpr ⟨himage, rfl⟩

section

variable (h : Inv format owner s)
include h

theorem getElem?_of_mem (himage : image ∈ s.published)
    (hmem : image.metadata.fileName ∈ s.store.files) :
    s.store.files[image.metadata.fileName]? = some image := by
  obtain ⟨held, hheld⟩ := exists_of_mem hmem
  obtain ⟨hpublished, hname⟩ :=
    h.file _ held hheld (by rw [isSome_snapshotIdOf (h.own image himage)]; rfl)
  rw [hheld, h.unique held hpublished image himage
    (TabletSnapshotMetadata.fileName_eq_iff.mp hname).2]

theorem not_mem_files (howner : image.metadata.owner = owner)
    (hunused : ∀ other ∈ s.published, other.metadata.snapshotId ≠ image.metadata.snapshotId) :
    image.metadata.fileName ∉ s.store.files := by
  intro hmem
  obtain ⟨held, hheld⟩ := exists_of_mem hmem
  obtain ⟨hpublished, hname⟩ :=
    h.file _ held hheld (by rw [isSome_snapshotIdOf howner]; rfl)
  exact hunused held hpublished (TabletSnapshotMetadata.fileName_eq_iff.mp hname).2

theorem forget : Inv format owner { s with allocated := none } :=
  { h with inFlight := by simp }

theorem lt_nextSnapshotId (hnext : s.store.nextSnapshotId owner = .ok id)
    (himage : image ∈ s.published) : image.metadata.snapshotId.val < id := by
  unfold nextSnapshotId at hnext
  split at hnext
  case h_1 nextId hnextId =>
    cases hnext
    exact h.below _ hnextId image himage
  case h_2 hnone =>
    obtain ⟨kept, hkept, hfile, hle⟩ := h.retained hnone image himage
    have hlt := lt_of_nextIdAfterPublishedSnapshots hnext hfile
      (isSome_snapshotIdOf (h.own kept hkept))
    omega

theorem allocate {store : FileTabletSnapshotStore}
    (hrun : (allocateSnapshotId owner).run s.store = .ok id store) :
    Inv format owner { s with store, allocated := some id } := by
  obtain ⟨hnext, rfl⟩ := allocateSnapshotId_eq_ok hrun
  have hallocator : (s.store.allocators.insert owner (id + 1))[owner]? = some (id + 1) := by simp
  refine { h with inFlight := ?_, below := ?_, retained := ?_ }
  · intro id' hid
    cases hid
    exact ⟨fun image himage => Nat.ne_of_lt (h.lt_nextSnapshotId hnext himage), id + 1, hallocator,
      Nat.lt_succ_self id⟩
  · intro nextId hnextId image himage
    rw [hallocator] at hnextId
    cases hnextId
    exact Nat.lt_succ_of_lt (h.lt_nextSnapshotId hnext himage)
  · intro hnone
    rw [hallocator] at hnone
    cases hnone

/-- A checked image under a free name and an identity that no other image has. -/
theorem insert (howner : image.metadata.owner = owner)
    (hcheck : s.store.checkPublication format image = .ok ())
    (hunique : ∀ other ∈ s.published,
      other.metadata.snapshotId = image.metadata.snapshotId → other = image)
    (hflight : s.allocated ≠ some image.metadata.snapshotId.val)
    (hbelow : ∀ nextId ∈ s.store.allocators[owner]?, image.metadata.snapshotId.val < nextId) :
    Inv format owner { s with
      store := { s.store with files := s.store.files.insert image.metadata.fileName image }
      published := image :: s.published } where
  file fileName held hheld hid := by
    rcases getElem?_insert_eq_some.mp hheld with ⟨hname, rfl⟩ | ⟨-, hheld⟩
    · exact ⟨List.mem_cons_self, hname⟩
    · obtain ⟨hmem, hname⟩ := h.file fileName held hheld hid
      exact ⟨List.mem_cons_of_mem _ hmem, hname⟩
  own := by
    intro other hother
    rcases List.mem_cons.mp hother with rfl | hother
    · exact howner
    · exact h.own other hother
  checked := by
    intro other hother
    rcases List.mem_cons.mp hother with rfl | hother
    · exact hcheck
    · exact h.checked other hother
  unique := by
    intro a ha b hb hid
    rcases List.mem_cons.mp ha with rfl | hold <;> rcases List.mem_cons.mp hb with rfl | hold'
    · rfl
    · exact (hunique b hold' hid.symm).symm
    · exact hunique a hold hid
    · exact h.unique a hold b hold' hid
  inFlight := by
    intro id hid
    obtain ⟨hunused, hnext⟩ := h.inFlight id hid
    refine ⟨?_, hnext⟩
    intro other hother
    rcases List.mem_cons.mp hother with rfl | hother
    · intro heq
      exact hflight (heq ▸ hid)
    · exact hunused other hother
  below := by
    intro nextId hnextId other hother
    rcases List.mem_cons.mp hother with rfl | hother
    · exact hbelow nextId hnextId
    · exact h.below nextId hnextId other hother
  retained := by
    intro hnone other hother
    rcases List.mem_cons.mp hother with rfl | hother
    · exact ⟨other, List.mem_cons_self, by simp, Nat.le_refl _⟩
    · obtain ⟨kept, hkept, hfile, hle⟩ := h.retained hnone other hother
      exact ⟨kept, List.mem_cons_of_mem _ hkept, by simp [hfile], hle⟩
  durable := by
    intro current hcurrent
    obtain ⟨hmem, hfile⟩ := h.durable current hcurrent
    exact ⟨List.mem_cons_of_mem _ hmem, by simp [hfile]⟩

theorem again (himage : image ∈ s.published) :
    Inv format owner { s with published := image :: s.published } := by
  have hmem : ∀ other, other ∈ image :: s.published ↔ other ∈ s.published := by
    intro other
    rw [List.mem_cons]
    exact ⟨fun hother => hother.elim (fun heq => heq ▸ himage) id, .inr⟩
  constructor <;> simp only [hmem]
  · exact h.file
  · exact h.own
  · exact h.checked
  · exact h.unique
  · exact h.inFlight
  · exact h.below
  · exact h.retained
  · exact h.durable

theorem publish (howner : image.metadata.owner = owner)
    (hfits : ReceiptFits owner s (.publishReceived image)) :
    Inv format owner (s.publish format image) := by
  unfold State.publish
  cases hrun : (FileTabletSnapshotStore.publish format image).run s.store with
  | error =>
    rw [publish_eq_error hrun]
    exact h
  | ok =>
    obtain ⟨hcheck, rfl, hfile⟩ := publish_eq_ok hrun
    by_cases hmem : image.metadata.fileName ∈ s.store.files
    · rw [linkFile_of_mem hmem] at hfile ⊢
      exact h.again (h.file _ image hfile (by rw [isSome_snapshotIdOf howner]; rfl)).1
    · rw [linkFile_of_not_mem hmem]
      obtain ⟨hunique, hflight, hbelow⟩ := hfits hmem
      exact h.insert howner hcheck hunique hflight hbelow

/-- Removing files that are older than the durable one. -/
theorem removeFiles (hdurable : s.durable = some image) {removed : List String}
    (hremoved : removed ⊆ s.store.olderSnapshots image.pointer) :
    Inv format owner { s with store := s.store.removeFiles removed } := by
  obtain ⟨himage, hcurrent⟩ := h.durable image hdurable
  have holder : ∀ other ∈ s.published, other.metadata.fileName ∈ removed →
      other.metadata.snapshotId < image.metadata.snapshotId := by
    intro other hother hmem
    obtain ⟨_, id, hid, hlt⟩ := mem_olderSnapshots.mp (hremoved hmem)
    rw [← (TabletSnapshotMetadata.snapshotIdOf_fileName.mp hid).2] at hlt
    exact hlt
  have hfiles : ∀ fileName, fileName ∈ (s.store.removeFiles removed).files ↔
      fileName ∉ removed ∧ fileName ∈ s.store.files := by
    intro fileName
    rw [FileTabletSnapshotStore.removeFiles, ExtTreeMap.mem_iff_isSome_getElem?,
      getElem?_foldl_erase, ExtTreeMap.mem_iff_isSome_getElem?]
    split <;> simp [*]
  have hkept : image.metadata.fileName ∈ (s.store.removeFiles removed).files :=
    (hfiles _).mpr ⟨fun hmem => absurd (holder image himage hmem) (Nat.lt_irrefl _), hcurrent⟩
  refine { h with file := ?_, retained := ?_, durable := ?_ }
  · intro fileName held hheld hid
    dsimp only [FileTabletSnapshotStore.removeFiles] at hheld
    rw [getElem?_foldl_erase] at hheld
    split at hheld
    · cases hheld
    · exact h.file fileName held hheld hid
  · intro hnone other hother
    obtain ⟨kept, hpublished, hfile, hle⟩ := h.retained hnone other hother
    -- the largest identity stays: if its file is removed, the durable one is larger
    by_cases hmem : kept.metadata.fileName ∈ removed
    · exact ⟨image, himage, hkept, Nat.le_trans hle (Nat.le_of_lt (holder kept hpublished hmem))⟩
    · exact ⟨kept, hpublished, (hfiles _).mpr ⟨hmem, hfile⟩, hle⟩
  · intro current hcur
    rw [hdurable] at hcur
    cases hcur
    exact ⟨himage, hkept⟩

/-- One step of a history whose receipts fit. -/
theorem step {a : Action} {t : State} (hfits : ReceiptFits owner s a)
    (hstep : next format owner s a = some t) : Inv format owner t := by
  cases a with
  | allocate =>
    simp only [next] at hstep
    split at hstep <;> cases hstep
    case h_1 id store hrun => exact h.allocate hrun
    case h_2 e store hrun =>
      rw [allocateSnapshotId_eq_error hrun]
      exact h
  | publishLocal =>
    simp only [next, eq_some] at hstep
    obtain ⟨⟨howner, hid⟩, rfl⟩ := hstep
    obtain ⟨hunused, nextId, hnextId, hlt⟩ := h.inFlight _ hid
    -- publishing consumes the identity in flight
    have hpublish := h.forget.publish howner fun _ =>
      ⟨fun other hother heq => absurd (congrArg Fin.val heq) (hunused other hother), by simp, by
        intro n hn
        rw [hnextId] at hn
        cases hn
        exact hlt⟩
    rw [State.publish_forget]
    exact hpublish
  | publishReceived =>
    simp only [next, eq_some] at hstep
    obtain ⟨howner, rfl⟩ := hstep
    exact h.publish howner hfits
  | persistPointer =>
    simp only [next, eq_some] at hstep
    obtain ⟨hpublished, rfl⟩ := hstep
    refine { h with durable := ?_ }
    intro current hcurrent
    cases hcurrent
    exact hpublished
  | prune =>
    simp only [next, eq_some] at hstep
    obtain ⟨image, hdurable, rfl⟩ := hstep
    obtain ⟨removed, hsub, hafter⟩ := after_pruneOlderSnapshots s.store image.pointer
    rw [hafter]
    exact h.removeFiles hdurable hsub
  | crashInPrune =>
    simp only [next] at hstep
    split at hstep
    case h_1 image hdurable =>
      simp only [eq_some] at hstep
      obtain ⟨hsub, rfl⟩ := hstep
      exact (h.removeFiles hdurable hsub).forget
    case h_2 => cases hstep
  | restart =>
    cases hstep
    exact h.forget

end

end Inv

theorem inv_of_reachable (h : ((system format owner).restrict (ReceiptFits owner)).Reachable s) :
    Inv format owner s :=
  h.invariant Inv.of_init fun _ hs hstep => hs.step hstep.1 hstep.2

/-- In every history whose receipts fit, a snapshot file name denotes at most one image, an
image under a freshly reserved identity is published without a conflict, and the file of the
newest durable pointer is there and loads to its image. -/
theorem snapshot_files_never_confused (format : SnapshotFileFormat) (owner : SnapshotOwner)
    {s : State} (h : ((system format owner).restrict (ReceiptFits owner)).Reachable s) :
    (∀ a ∈ s.published, ∀ b ∈ s.published, a.metadata.fileName = b.metadata.fileName → a = b) ∧
      (∀ image : TabletSnapshotImage, image.metadata.owner = owner →
        s.allocated = some image.metadata.snapshotId.val →
        answer (publish format image) s.store ≠ .error .conflictingPublishedSnapshot ∧
          (s.store.checkPublication format image = .ok () →
            answer (publish format image) s.store = .ok image.pointer)) ∧
      ∀ image, s.durable = some image → s.store.loadVerified format image.pointer = .ok image := by
  have hinv := inv_of_reachable h
  refine ⟨?_, ?_, ?_⟩
  · intro a ha b hb hname
    exact hinv.unique a ha b hb (TabletSnapshotMetadata.fileName_eq_iff.mp hname).2
  · intro image howner hid
    have hfree : image.metadata.fileName ∉ s.store.files :=
      hinv.not_mem_files howner fun other hother heq =>
        (hinv.inFlight _ hid).1 other hother (congrArg Fin.val heq)
    rw [answer_publish_of_not_mem hfree]
    exact ⟨map_checkPublication_ne_conflicting _, fun hcheck => by rw [hcheck]; rfl⟩
  · intro image hdurable
    obtain ⟨hmem, hfile⟩ := hinv.durable image hdurable
    exact loadVerified_pointer (hinv.getElem?_of_mem hmem hfile) (hinv.checked image hmem)

/-! ## Histories -/

/-- A format that keeps payloads as their own checksum. -/
def sampleFormat : SnapshotFileFormat where
  checksum payload := payload
  encodedLength image := image.data.length

def sampleOwner : SnapshotOwner := ⟨1, 2, 3⟩

def sampleImage (snapshotId : Fin (2 ^ 64)) (data : Bytes) : TabletSnapshotImage where
  metadata :=
    { formatVersion := 1, clusterId := "cluster", raftGroupId := 1, replicaId := 2, tabletId := 3
      tabletEpoch := 1, snapshotId, lastIncludedIndex := 10, lastIncludedTerm := 1
      confState := ⟨1, [2], [], []⟩, storageFormatVersion := 1, totalLength := data.length
      checksum := data, lastRemovedReplica := none }
  data

def sampleStart : State where
  store := ⟨1000, ∅, ∅⟩
  allocated := none
  durable := none
  published := []

theorem sampleStart_init : Init sampleOwner sampleStart := by
  constructor <;> simp [sampleStart]

/-- A follower installs a leader's image 7, loses the reserved 8 in a restart, publishes its own
9, prunes and reserves 10. -/
def sampleActions : List Action :=
  [.publishReceived (sampleImage 7 [70]), .persistPointer (sampleImage 7 [70]), .allocate, .restart,
    .allocate, .publishLocal (sampleImage 9 [90]), .persistPointer (sampleImage 9 [90]), .prune,
    .allocate]

theorem snapshot_files_never_confused_follower :
    ∃ s, ((system sampleFormat sampleOwner).restrict (ReceiptFits sampleOwner)).Reachable s ∧
      s.published = [sampleImage 9 [90], sampleImage 7 [70]] ∧
      answer (publish sampleFormat (sampleImage 10 [100])) s.store ≠
        .error .conflictingPublishedSnapshot ∧
      s.store.loadVerified sampleFormat (sampleImage 9 [90]).pointer =
        .ok (sampleImage 9 [90]) := by
  have hrun : (sampleActions.foldlM
      (fun s a => if ReceiptFits sampleOwner s a then next sampleFormat sampleOwner s a else none)
      sampleStart).map (fun s => (s.published, s.allocated, s.durable)) =
        some ([sampleImage 9 [90], sampleImage 7 [70]], some 10, some (sampleImage 9 [90])) := by
    decide +kernel
  obtain ⟨s, hreachable, hstate⟩ := Lts.Reachable.of_run
    (L := (system sampleFormat sampleOwner).restrict (ReceiptFits sampleOwner)) hrun
      sampleStart_init
    fun h => Option.ite_none_right_eq_some.mp h
  simp only [Prod.mk.injEq] at hstate
  obtain ⟨hpublished, hallocated, hdurable⟩ := hstate
  obtain ⟨-, hlocal, hload⟩ := snapshot_files_never_confused sampleFormat sampleOwner hreachable
  exact ⟨s, hreachable, hpublished, (hlocal (sampleImage 10 [100]) rfl hallocated).1,
    hload _ hdurable⟩

/-- A local image 1 is replaced by image 2 and pruned; then a leader's own image 1 arrives. -/
def confusedActions : List Action :=
  [.allocate, .publishLocal (sampleImage 1 [10]), .persistPointer (sampleImage 1 [10]), .allocate,
    .publishLocal (sampleImage 2 [20]), .persistPointer (sampleImage 2 [20]), .prune,
    .publishReceived (sampleImage 1 [11])]

theorem snapshot_file_name_reused :
    ∃ s, (system sampleFormat sampleOwner).Reachable s ∧
      sampleImage 1 [10] ∈ s.published ∧ sampleImage 1 [11] ∈ s.published ∧
      (sampleImage 1 [10]).metadata.fileName = (sampleImage 1 [11]).metadata.fileName ∧
      sampleImage 1 [10] ≠ sampleImage 1 [11] := by
  have hrun : (confusedActions.foldlM (next sampleFormat sampleOwner) sampleStart).map
      State.published = some [sampleImage 1 [11], sampleImage 2 [20], sampleImage 1 [10]] := by
    decide +kernel
  obtain ⟨s, hreachable, hpublished⟩ :=
    Lts.Reachable.of_run (L := system _ _) hrun sampleStart_init id
  refine ⟨s, hreachable, ?_, ?_, rfl, by decide⟩
  · simp [hpublished]
  · simp [hpublished]

end RagnorDb.SnapshotHistory
