import RagnorDb.Common.Ids
import RagnorDb.Common.Text
import Mathlib.Data.List.DropRight

/-!
# The snapshot file store of a tablet

`FileTabletSnapshotStore` of `ragnordb-tablet/src/snapshot.rs`: a directory of immutable
snapshot files, each named by the replica lifetime it belongs to and its snapshot identity,
and one allocator file for each replica lifetime.  A published file is a directory entry,
which the store links and syncs atomically, so an operation that is cut short by a crash
has either had its effect or none.  The checksum (BLAKE3) and the length of the encoded file
(protobuf) are parameters.
-/

namespace RagnorDb

open Std Checked OrderedMap

/-! ## Metadata -/

/-- Configuration state captured together with a tablet snapshot. -/
structure TabletSnapshotConfState where
  configurationVersion : Nat
  voters : List ReplicaId
  learners : List ReplicaId
  outgoingVoters : List ReplicaId
  deriving DecidableEq

/-- The committed removal of a replica: its identity, index, term and version. -/
structure RemovalProof where
  replicaId : ReplicaId
  index : Nat
  term : Nat
  version : Nat
  deriving DecidableEq

instance snapshotId_neZero : NeZero (2 ^ 64) := inferInstance

/-- Versioned metadata of an immutable tablet snapshot. -/
structure TabletSnapshotMetadata where
  formatVersion : Nat
  clusterId : String
  raftGroupId : RaftGroupId
  replicaId : ReplicaId
  tabletId : TabletId
  tabletEpoch : Nat
  snapshotId : Fin (2 ^ 64)
  lastIncludedIndex : Nat
  lastIncludedTerm : Nat
  confState : TabletSnapshotConfState
  storageFormatVersion : Nat
  totalLength : Nat
  checksum : Bytes
  lastRemovedReplica : Option RemovalProof
  deriving DecidableEq

inductive TabletSnapshotMetadataError where
  | unsupportedMetadataVersion (version : Nat)
  | unsupportedStorageFormatVersion (version : Nat)
  | emptyClusterId
  | clusterIdTooLong
  | zeroRaftGroupId
  | zeroReplicaId
  | zeroTabletId
  | zeroTabletEpoch
  | zeroSnapshotId
  | invalidSnapshotBoundary
  | zeroConfigurationVersion
  | noVoters
  | zeroReplicaIdInConfiguration
  | voterLearnerOverlap (replicaId : ReplicaId)
  | zeroTotalLength
  | invalidRemovalProof
  | lengthMismatch (expected actual : Nat)
  | checksumMismatch
  deriving DecidableEq

def TabletSnapshotConfState.validate (self : TabletSnapshotConfState) :
    Except TabletSnapshotMetadataError Unit := do
  rejectIf (self.configurationVersion = 0) .zeroConfigurationVersion
  rejectIf (self.voters = []) .noVoters
  rejectIf ((self.voters ++ self.learners ++ self.outgoingVoters).any (· = 0))
    .zeroReplicaIdInConfiguration
  match self.learners.find? fun id =>
    self.voters.contains id || self.outgoingVoters.contains id with
  | some replicaId => .error (.voterLearnerOverlap replicaId)
  | none => .ok ()

namespace TabletSnapshotMetadata

/-- A removal proof lies within the snapshot and names no member. -/
def validateRemoval (self : TabletSnapshotMetadata) :
    Option RemovalProof → Except TabletSnapshotMetadataError Unit
  | none => .ok ()
  | some proof => do
    rejectIf (proof.replicaId = 0 ∨ proof.index = 0 ∨ proof.index > self.lastIncludedIndex ∨
        proof.term = 0 ∨ proof.version = 0 ∨
        proof.version > self.confState.configurationVersion)
      .invalidRemovalProof
    rejectIf (self.confState.voters.contains proof.replicaId ∨
        self.confState.learners.contains proof.replicaId ∨
        self.confState.outgoingVoters.contains proof.replicaId)
      .invalidRemovalProof

def validate (self : TabletSnapshotMetadata) : Except TabletSnapshotMetadataError Unit := do
  rejectIf (self.formatVersion ≠ 1) (.unsupportedMetadataVersion self.formatVersion)
  rejectIf (self.storageFormatVersion ≠ 1)
    (.unsupportedStorageFormatVersion self.storageFormatVersion)
  rejectIf (isBlank self.clusterId) .emptyClusterId
  rejectIf (self.clusterId.utf8ByteSize > 256) .clusterIdTooLong
  rejectIf (self.raftGroupId = 0) .zeroRaftGroupId
  rejectIf (self.replicaId = 0) .zeroReplicaId
  rejectIf (self.tabletId = 0) .zeroTabletId
  rejectIf (self.tabletEpoch = 0) .zeroTabletEpoch
  rejectIf (self.snapshotId = 0) .zeroSnapshotId
  rejectIf (self.lastIncludedIndex = 0 ∨ self.lastIncludedTerm = 0) .invalidSnapshotBoundary
  rejectIf (self.totalLength = 0) .zeroTotalLength
  self.validateRemoval self.lastRemovedReplica
  self.confState.validate

end TabletSnapshotMetadata

/-- Verified immutable tablet snapshot bytes. -/
structure TabletSnapshotImage where
  metadata : TabletSnapshotMetadata
  data : Bytes
  deriving DecidableEq

/-- Durable pointer to one atomically published tablet snapshot file. -/
structure TabletSnapshotPointer where
  metadata : TabletSnapshotMetadata
  fileName : String
  deriving DecidableEq

/-! ## File names -/

/-- The replica lifetime that owns a snapshot file. -/
structure SnapshotOwner where
  raftGroupId : RaftGroupId
  replicaId : ReplicaId
  tabletId : TabletId
  deriving DecidableEq

namespace SnapshotOwner

def key (self : SnapshotOwner) : List Nat :=
  [self.raftGroupId, self.replicaId, self.tabletId]

theorem key_injective : Function.Injective key := by
  intro ⟨g, r, t⟩ ⟨g', r', t'⟩ h
  obtain ⟨rfl, rfl, rfl⟩ := h
  rfl

instance : Ord SnapshotOwner := ⟨compareOn key⟩

instance : TransOrd SnapshotOwner := inferInstanceAs (TransCmp (compareOn key))

instance : LawfulEqOrd SnapshotOwner := lawfulEqCmp_compareOn key_injective

/-- What the names of the owner's snapshot files start with. -/
def filePrefix (self : SnapshotOwner) : String :=
  s!"tablet-{self.raftGroupId}-{self.replicaId}-{self.tabletId}-"

end SnapshotOwner

variable (self : TabletSnapshotMetadata)

def TabletSnapshotMetadata.owner : SnapshotOwner :=
  ⟨self.raftGroupId, self.replicaId, self.tabletId⟩

/-- `str::parse::<u64>`. -/
def parseU64 (text : List Char) : Option Nat :=
  let digits := if text.head? = some '+' then text.tail else text
  if digits = [] ∨ ¬ digits.all Char.isDigit then none
  else
    let value := Nat.ofDigitChars 10 digits 0
    if value ≤ u64Max then some value else none

/-- The snapshot identity in the name of one of the owner's files. -/
def SnapshotOwner.snapshotIdOf (self : SnapshotOwner) (fileName : String) : Option Nat := do
  let value ← fileName.toList.dropPrefix? self.filePrefix.toList
  let value ← value.dropSuffix? ".snapshot".toList
  parseU64 value

/-- The identity-derived name of a snapshot's file. -/
def TabletSnapshotMetadata.fileName : String :=
  s!"tablet-{self.raftGroupId}-{self.replicaId}-{self.tabletId}-{self.snapshotId.val}.snapshot"

/-- The pointer to an image under its identity-derived name. -/
def TabletSnapshotImage.pointer (self : TabletSnapshotImage) : TabletSnapshotPointer :=
  ⟨self.metadata, self.metadata.fileName⟩

theorem eq_of_append_separator {a b x y : List Char} {c : Char} (ha : c ∉ a) (hb : c ∉ b)
    (h : a ++ c :: x = b ++ c :: y) : a = b ∧ x = y := by
  induction a generalizing b with
  | nil =>
    cases b with
    | nil => exact ⟨rfl, (List.cons.inj h).2⟩
    | cons =>
      have hd := (List.cons.inj h).1
      exact absurd (by simp [hd]) hb
  | cons d a ih =>
    cases b with
    | nil =>
      have hd := (List.cons.inj h).1
      exact absurd (by simp [hd]) ha
    | cons =>
      obtain ⟨hd, htail⟩ := List.cons.inj h
      obtain ⟨hab, hxy⟩ := ih (fun hc => ha (List.mem_cons_of_mem _ hc))
        (fun hc => hb (List.mem_cons_of_mem _ hc)) htail
      exact ⟨by rw [hd, hab], hxy⟩

theorem not_mem_toDigits (n : Nat) : '-' ∉ Nat.toDigits 10 n := by
  intro h
  have hdigit := Nat.isDigit_of_mem_toDigits (by decide) (by decide) h
  exact absurd hdigit (by decide)

theorem toDigits_injective : Function.Injective (Nat.toDigits 10) := by
  intro m n h
  rw [← Nat.ofDigitChars_ten_toDigits (n := m), h, Nat.ofDigitChars_ten_toDigits]

theorem parseU64_toDigits (n : Fin (2 ^ 64)) : parseU64 (Nat.toDigits 10 n.val) = some n.val := by
  have hdigits : ∀ c ∈ Nat.toDigits 10 n.val, c.isDigit = true := fun c hc =>
    Nat.isDigit_of_mem_toDigits (by decide) (by decide) hc
  have hne : Nat.toDigits 10 n.val ≠ [] := Nat.toDigits_ne_nil
  have hplus : (Nat.toDigits 10 n.val).head? ≠ some '+' := by
    intro hhead
    have hmem := List.mem_of_mem_head? hhead
    exact absurd (hdigits _ hmem) (by decide)
  have hbound : n.val ≤ u64Max := Nat.le_of_lt_succ n.isLt
  simp only [parseU64, if_neg hplus, hne, List.all_eq_true, Nat.ofDigitChars_ten_toDigits, hbound]
  simpa using hdigits

namespace SnapshotOwner

theorem filePrefix_append_injective {o o' : SnapshotOwner} {x y : List Char}
    (h : o.filePrefix.toList ++ x = o'.filePrefix.toList ++ y) : o = o' ∧ x = y := by
  have hlist : ∀ o : SnapshotOwner, o.filePrefix.toList = "tablet-".toList ++
      (Nat.toDigits 10 o.raftGroupId ++ '-' :: (Nat.toDigits 10 o.replicaId ++ '-' ::
        (Nat.toDigits 10 o.tabletId ++ '-' :: []))) := by
    intro o
    simp [filePrefix, toString]
  rw [hlist, hlist] at h
  simp only [List.append_assoc, List.cons_append, List.nil_append] at h
  obtain ⟨hgroup, h⟩ := eq_of_append_separator (not_mem_toDigits _) (not_mem_toDigits _)
    (List.append_cancel_left h)
  obtain ⟨hreplica, h⟩ := eq_of_append_separator (not_mem_toDigits _) (not_mem_toDigits _) h
  obtain ⟨htablet, h⟩ := eq_of_append_separator (not_mem_toDigits _) (not_mem_toDigits _) h
  refine ⟨?_, h⟩
  cases o
  cases o'
  simp only [toDigits_injective.eq_iff] at hgroup hreplica htablet
  simp [hgroup, hreplica, htablet]

end SnapshotOwner

namespace TabletSnapshotMetadata

variable {md : TabletSnapshotMetadata}

theorem fileName_toList (md : TabletSnapshotMetadata) : md.fileName.toList =
    md.owner.filePrefix.toList ++ (Nat.toDigits 10 md.snapshotId.val ++ ".snapshot".toList) := by
  simp [fileName, owner, SnapshotOwner.filePrefix, toString]

/-- A file name gives back the owner and the identity it was made from. -/
theorem snapshotIdOf_fileName {o : SnapshotOwner} {id : Nat} :
    o.snapshotIdOf md.fileName = some id ↔ md.owner = o ∧ md.snapshotId.val = id := by
  constructor
  · intro h
    simp only [SnapshotOwner.snapshotIdOf, Option.bind_eq_bind, eq_some,
      List.dropPrefix?_eq_some_iff] at h
    obtain ⟨x, ⟨p, hname, hp⟩, y, hy, hparse⟩ := h
    rw [eq_of_beq hp, fileName_toList] at hname
    obtain ⟨howner, rfl⟩ := SnapshotOwner.filePrefix_append_injective hname
    refine ⟨howner, ?_⟩
    obtain ⟨s, hsplit, hs⟩ := List.dropSuffix?_eq_some_iff.mp hy
    rw [eq_of_beq hs] at hsplit
    rw [← List.append_cancel_right hsplit, parseU64_toDigits] at hparse
    exact Option.some.inj hparse
  · rintro ⟨rfl, rfl⟩
    simp only [SnapshotOwner.snapshotIdOf, fileName_toList]
    have hsuffix : (Nat.toDigits 10 md.snapshotId.val ++ ".snapshot".toList).dropSuffix?
        ".snapshot".toList = some (Nat.toDigits 10 md.snapshotId.val) :=
      List.dropSuffix?_eq_some_iff.mpr ⟨_, rfl, by simp⟩
    rw [List.dropPrefix?_append_of_beq _ (by simp), Option.bind_eq_bind, Option.bind_some,
      hsuffix, Option.bind_some, parseU64_toDigits]

theorem fileName_eq_iff {md' : TabletSnapshotMetadata} :
    md.fileName = md'.fileName ↔ md.owner = md'.owner ∧ md.snapshotId = md'.snapshotId := by
  constructor
  · intro h
    have hid : md.owner.snapshotIdOf md.fileName = some md.snapshotId.val :=
      snapshotIdOf_fileName.mpr ⟨rfl, rfl⟩
    rw [h] at hid
    obtain ⟨howner, hsame⟩ := snapshotIdOf_fileName.mp hid
    exact ⟨howner.symm, (Fin.ext hsame).symm⟩
  · intro ⟨howner, hid⟩
    simp only [owner, SnapshotOwner.mk.injEq] at howner
    simp [fileName, howner, hid]

end TabletSnapshotMetadata

/-! ## The store -/

/-- What the store takes from outside the repository: the payload checksum and the length of
an encoded snapshot file. -/
structure SnapshotFileFormat where
  checksum : Bytes → Bytes
  encodedLength : TabletSnapshotImage → Nat

/-- Checksum and length checks of a payload against its metadata. -/
def TabletSnapshotMetadata.verifyPayload
    (format : SnapshotFileFormat) (payload : Bytes) : Except TabletSnapshotMetadataError Unit := do
  self.validate
  rejectIf (payload.length ≠ self.totalLength) (.lengthMismatch self.totalLength payload.length)
  rejectIf (format.checksum payload ≠ self.checksum) .checksumMismatch

variable {self}

inductive TabletSnapshotStoreError where
  | metadata (error : TabletSnapshotMetadataError)
  | io (message : String)
  | snapshotFileTooLarge (actual limit : Nat)
  | fileMetadataMismatch
  | invalidFileName
  | conflictingPublishedSnapshot
  | invalidSnapshotAllocatorIdentity
  | invalidSnapshotIdState (message : String)
  | snapshotIdExhausted
  deriving DecidableEq

/-- The directory of published images and allocator states. -/
structure FileTabletSnapshotStore where
  maxFileBytes : Nat
  files : ExtTreeMap String TabletSnapshotImage
  allocators : ExtTreeMap SnapshotOwner Nat

namespace FileTabletSnapshotStore

variable {st st' : FileTabletSnapshotStore} {owner : SnapshotOwner} {n : Nat} {fileName : String}
  {e : TabletSnapshotStoreError} {image : TabletSnapshotImage}

variable (self : FileTabletSnapshotStore)

variable (owner : SnapshotOwner)

/-- The identities in the names of an owner's published files. -/
def publishedIds : List Nat :=
  self.files.keys.filterMap owner.snapshotIdOf

def nextIdAfterPublishedSnapshots :
    Except TabletSnapshotStoreError Nat :=
  okOr (checkedAdd ((self.publishedIds owner).foldl max 0) 1) .snapshotIdExhausted

/-- The identity an allocation takes: the allocator file's, or the first one above the
published files if there is no allocator file. -/
def nextSnapshotId :
    Except TabletSnapshotStoreError Nat :=
  match self.allocators[owner]? with
  | some nextId => .ok nextId
  | none => self.nextIdAfterPublishedSnapshots owner

/-- The checks of an allocation, with the identity it takes and the successor it stores. -/
def checkAllocation :
    Except TabletSnapshotStoreError (Nat × Nat) := do
  rejectIf (owner.raftGroupId = 0 ∨ owner.replicaId = 0 ∨ owner.tabletId = 0)
    .invalidSnapshotAllocatorIdentity
  let nextId ← self.nextSnapshotId owner
  rejectIf (nextId = 0) (.invalidSnapshotIdState "next snapshot ID is zero")
  let successor ← okOr (checkedAdd nextId 1) .snapshotIdExhausted
  return (nextId, successor)

variable {self}

/-- Durably reserve the next snapshot identity of one replica lifetime.  The successor is
synchronised before the identity is returned. -/
def allocateSnapshotId :
    EStateM TabletSnapshotStoreError FileTabletSnapshotStore Nat := do
  let (nextId, successor) ← (← get).checkAllocation owner
  modify fun self => { self with allocators := self.allocators.insert owner successor }
  return nextId

variable {owner}

variable (format : SnapshotFileFormat)

variable (self : FileTabletSnapshotStore)

def loadVerified (pointer : TabletSnapshotPointer) :
    Except TabletSnapshotStoreError TabletSnapshotImage := do
  pointer.metadata.validate.mapError .metadata
  rejectIf (pointer.fileName ≠ pointer.metadata.fileName) .invalidFileName
  let file ← okOr self.files[pointer.fileName]? (.io "No such file or directory (os error 2)")
  rejectIf (format.encodedLength file > self.maxFileBytes)
    (.snapshotFileTooLarge (format.encodedLength file) self.maxFileBytes)
  rejectIf (file.metadata ≠ pointer.metadata) .fileMetadataMismatch
  (file.metadata.verifyPayload format file.data).mapError .metadata
  return file

variable (image : TabletSnapshotImage)

/-- The image must be the one that its name denotes. -/
def confirmPublished :
    Except TabletSnapshotStoreError Unit := do
  let existing ← self.loadVerified format image.pointer
  rejectIf (existing ≠ image) .conflictingPublishedSnapshot

/-- The checks of an image before its file is written. -/
def checkPublication :
    Except TabletSnapshotStoreError Unit := do
  (image.metadata.verifyPayload format image.data).mapError .metadata
  rejectIf (format.encodedLength image > self.maxFileBytes)
    (.snapshotFileTooLarge (format.encodedLength image) self.maxFileBytes)

/-- `fs::hard_link`: a name that is taken keeps its file. -/
def linkFile :
    FileTabletSnapshotStore :=
  if self.files.contains image.metadata.fileName then self
  else { self with files := self.files.insert image.metadata.fileName image }

variable {self}

/-- Publish an image under its identity-derived name, and confirm what the name denotes. -/
def publish :
    EStateM TabletSnapshotStoreError FileTabletSnapshotStore TabletSnapshotPointer := do
  (← get).checkPublication format image
  modify fun self => self.linkFile image
  (← get).confirmPublished format image
  return image.pointer

variable {image}

def removeFiles (self : FileTabletSnapshotStore) (fileNames : List String) :
    FileTabletSnapshotStore :=
  { self with files := fileNames.foldl ExtTreeMap.erase self.files }

/-- The files that a prune for `current` removes. -/
def olderSnapshots (self : FileTabletSnapshotStore) (current : TabletSnapshotPointer) :
    List String :=
  self.files.keys.filter fun fileName =>
    (current.metadata.owner.snapshotIdOf fileName).any (· < current.metadata.snapshotId.val)

/-- Remove the older published images of the replica lifetime that `current` belongs to. -/
def pruneOlderSnapshots (current : TabletSnapshotPointer) :
    EStateM TabletSnapshotStoreError FileTabletSnapshotStore Nat := do
  let self ← get
  let _ ← self.loadVerified format current
  modify fun self => self.removeFiles (self.olderSnapshots current)
  return (self.olderSnapshots current).length

/-! ## What the operations do -/

theorem lt_of_nextIdAfterPublishedSnapshots
    {id : Nat} (h : st.nextIdAfterPublishedSnapshots owner = .ok n)
    (hfile : fileName ∈ st.files) (hid : owner.snapshotIdOf fileName = some id) : id < n := by
  have hmem : id ∈ st.publishedIds owner :=
    List.mem_filterMap.mpr ⟨fileName, ExtTreeMap.mem_keys.mpr hfile, hid⟩
  have hn := eq_of_checkedAdd (okOr_eq_ok.mp h)
  have hle : id ≤ (st.publishedIds owner).foldl max 0 :=
    (foldl_max_le.mp (Nat.le_refl _)).2 id hmem
  omega

theorem allocateSnapshotId_eq_ok
    (h : (allocateSnapshotId owner).run st = .ok n st') : st.nextSnapshotId owner = .ok n ∧
      st' = { st with allocators := st.allocators.insert owner (n + 1) } := by
  simp only [allocateSnapshotId, run_eq_ok, modify_bind_run] at h
  obtain ⟨⟨nextId, successor⟩, hcheck, h⟩ := h
  simp only [checkAllocation, eq_ok, Prod.mk.injEq] at hcheck
  obtain ⟨_, _, n', hnext, _, _, s', hsucc, rfl, rfl⟩ := hcheck
  cases h
  rw [eq_of_checkedAdd hsucc]
  exact ⟨hnext, rfl⟩

theorem allocateSnapshotId_eq_error (h : (allocateSnapshotId owner).run st = .error e st') :
    st' = st := by
  unfold allocateSnapshotId at h
  rw [get_bind_run] at h
  cases hcheck : st.checkAllocation owner with
  | error =>
    rw [lift_bind_run_of_error hcheck] at h
    cases h
    rfl
  | ok =>
    rw [lift_bind_run_of_ok hcheck] at h
    cases h

variable {format}

theorem loadVerified_pointer (hfile : st.files[image.metadata.fileName]? = some image)
    (hcheck : st.checkPublication format image = .ok ()) :
    st.loadVerified format image.pointer = .ok image := by
  simp only [checkPublication, eq_ok] at hcheck
  obtain ⟨_, hverify, hfits⟩ := hcheck
  have hvalid : image.metadata.validate = .ok () := by
    simp only [TabletSnapshotMetadata.verifyPayload, eq_ok] at hverify
    obtain ⟨_, hvalid, _⟩ := hverify
    exact hvalid
  simp only [loadVerified, TabletSnapshotImage.pointer, hvalid, hfile, hverify, okOr,
    Except.mapError, ok_bind, rejectIf, hfits, if_false, ne_eq, not_true_eq_false]
  rfl

theorem getElem?_of_loadVerified {file : TabletSnapshotImage}
    (h : st.loadVerified format image.pointer = .ok file) :
    st.files[image.metadata.fileName]? = some file := by
  simp only [loadVerified, eq_ok] at h
  obtain ⟨_, _, _, _, _, hfile, _, _, _, _, _, _, rfl⟩ := h
  exact hfile

theorem linkFile_of_mem (h : image.metadata.fileName ∈ st.files) : st.linkFile image = st := by
  rw [linkFile, if_pos (ExtTreeMap.mem_iff_contains.mp h)]

theorem linkFile_of_not_mem (h : image.metadata.fileName ∉ st.files) : st.linkFile image =
      { st with files := st.files.insert image.metadata.fileName image } := by
  rw [linkFile, if_neg (fun hc => h (ExtTreeMap.mem_iff_contains.mpr hc))]

section

variable (hcheck : st.checkPublication format image = .ok ())
  (h : image.metadata.fileName ∉ st.files)
include hcheck h

theorem confirmPublished_linkFile : (st.linkFile image).confirmPublished format image = .ok () := by
  rw [linkFile_of_not_mem h]
  have hload : loadVerified format
      { st with files := st.files.insert image.metadata.fileName image } image.pointer
        = .ok image :=
    loadVerified_pointer (by simp) hcheck
  simp [confirmPublished, hload, rejectIf]

theorem publish_run_of_not_mem : (publish format image).run st = .ok image.pointer
      { st with files := st.files.insert image.metadata.fileName image } := by
  unfold publish
  rw [get_bind_run, lift_bind_run_of_ok hcheck, modify_bind_run, get_bind_run,
    lift_bind_run_of_ok (confirmPublished_linkFile hcheck h), EStateM.run_pure,
      linkFile_of_not_mem h]

end

theorem answer_publish_of_not_mem
    (h : image.metadata.fileName ∉ st.files) : answer (publish format image) st =
      (st.checkPublication format image).map fun _ => image.pointer := by
  cases hcheck : st.checkPublication format image with
  | error =>
    unfold publish
    rw [answer, get_bind_run, lift_bind_run_of_error hcheck]
    rfl
  | ok =>
    rw [answer, publish_run_of_not_mem hcheck h]
    rfl

theorem map_checkPublication_ne_conflicting {α : Type} (f : Unit → α) :
    (st.checkPublication format image).map f ≠ .error .conflictingPublishedSnapshot := by
  have hfails : FailsWith (· ≠ TabletSnapshotStoreError.conflictingPublishedSnapshot)
      (st.checkPublication format image) := by
    simp [checkPublication]
  cases hcheck : st.checkPublication format image with
  | error =>
    intro h
    cases h
    exact hfails _ hcheck rfl
  | ok => simp [Except.map]

theorem publish_eq_ok
    {pointer : TabletSnapshotPointer} (h : (publish format image).run st = .ok pointer st') :
    st.checkPublication format image = .ok () ∧ st' = st.linkFile image ∧
      st'.files[image.metadata.fileName]? = some image := by
  simp only [publish, run_eq_ok, modify_bind_run] at h
  obtain ⟨_, hcheck, _, hconfirm, h⟩ := h
  cases h
  simp only [confirmPublished, eq_ok, ne_eq] at hconfirm
  obtain ⟨existing, hload, rfl⟩ := hconfirm
  exact ⟨hcheck, rfl, getElem?_of_loadVerified hload⟩

/-- A publication that fails leaves the directory as it was. -/
theorem publish_eq_error (h : (publish format image).run st = .error e st') : st' = st := by
  cases hcheck : st.checkPublication format image with
  | error =>
    unfold publish at h
    rw [get_bind_run, lift_bind_run_of_error hcheck] at h
    cases h
    rfl
  | ok =>
    by_cases hmem : image.metadata.fileName ∈ st.files
    · unfold publish at h
      rw [get_bind_run, lift_bind_run_of_ok hcheck, modify_bind_run, get_bind_run,
        linkFile_of_mem hmem] at h
      cases hconfirm : st.confirmPublished format image with
      | error =>
        rw [lift_bind_run_of_error hconfirm] at h
        cases h
        rfl
      | ok =>
        rw [lift_bind_run_of_ok hconfirm] at h
        cases h
    · rw [publish_run_of_not_mem hcheck hmem] at h
      cases h

theorem mem_olderSnapshots {current : TabletSnapshotPointer} :
    fileName ∈ st.olderSnapshots current ↔ fileName ∈ st.files ∧
      ∃ id, current.metadata.owner.snapshotIdOf fileName = some id ∧
        id < current.metadata.snapshotId.val := by
  simp [olderSnapshots, Option.any_eq_true]

theorem after_pruneOlderSnapshots (st : FileTabletSnapshotStore) (current : TabletSnapshotPointer) :
    ∃ removed ⊆ st.olderSnapshots current,
      after (pruneOlderSnapshots format current) st = st.removeFiles removed := by
  cases hload : st.loadVerified format current with
  | error e =>
    have hrun : (pruneOlderSnapshots format current).run st = .error e st := by
      unfold pruneOlderSnapshots
      rw [get_bind_run, lift_bind_run_of_error hload]
    exact ⟨[], by simp, after_of_error hrun⟩
  | ok =>
    have hrun : (pruneOlderSnapshots format current).run st = .ok (st.olderSnapshots current).length
        (st.removeFiles (st.olderSnapshots current)) := by
      unfold pruneOlderSnapshots
      rw [get_bind_run, lift_bind_run_of_ok hload, modify_bind_run, EStateM.run_pure]
    exact ⟨_, List.Subset.refl _, after_of_ok hrun⟩

end FileTabletSnapshotStore

end RagnorDb
