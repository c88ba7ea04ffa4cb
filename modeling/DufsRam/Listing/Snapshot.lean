import Mathlib.Data.List.AList
import DufsRam.Lib.Loop
import DufsRam.Lib.Machine
import DufsRam.Listing.Cursor

/-!
# The store of list snapshots

`listing/snapshot.rs`: the paths of a listing are kept as an immutable snapshot, from which later
pages are cut. The store is bounded, in total and for each owner, and drops the oldest snapshots
first. A snapshot expires after a fixed time; expired snapshots are only looked for at the front of
the queue of insertions.

The loops of the store are run with a number of rounds (`Loop.iterate`); a call whose loop is not
over by then has no result.
-/

namespace DufsRam.Listing

def usizeMax : ℕ := 2 ^ 64 - 1

def saturatingAdd (a b : ℕ) : ℕ := min (a + b) usizeMax

def saturatingMul (a b : ℕ) : ℕ := min (a * b) usizeMax

def maxCachedListSnapshots : ℕ := 32

def maxCachedListSnapshotBytes : ℕ := 64 * 1024 * 1024

def maxCachedListSnapshotsPerOwner : ℕ := 8

def maxCachedListSnapshotBytesPerOwner : ℕ := 32 * 1024 * 1024

/-- In nanoseconds, as all times. -/
def listSnapshotTtl : ℕ := 120 * 10 ^ 9

/-! ### Records -/

/-- A string on the heap, with the bytes that are allocated for it. -/
structure HeapString where
  text : List UInt8
  capacity : ℕ
  deriving DecidableEq

inductive PathType where
  | dir
  | symlinkDir
  | file
  | symlinkFile
  deriving DecidableEq

structure PathItem where
  pathType : PathType
  sortName : HeapString
  name : HeapString
  mtime : ℕ
  size : ℕ
  revision : ByteBlock 32
  deriving DecidableEq

/-- A vector of items. -/
structure PathVec where
  items : List PathItem
  capacity : ℕ
  fits : items.length ≤ capacity

structure DirectorySnapshot where
  device : ℕ
  inode : ℕ
  mtime : ℤ
  mtimeNanoseconds : ℤ
  ctime : ℤ
  ctimeNanoseconds : ℤ
  deriving DecidableEq

structure ListSnapshotBinding where
  owner : ByteBlock 32
  path : List UInt8
  directory : DirectorySnapshot
  sort : HeapString
  order : HeapString
  query : HeapString
  limit : ℕ
  deriving DecidableEq

structure ListSnapshotRequest where
  owner : ByteBlock 32
  path : List UInt8
  directory : DirectorySnapshot
  sort : List UInt8
  order : List UInt8
  query : List UInt8
  limit : ℕ
  deriving DecidableEq

def ListSnapshotBinding.matchesRequest (b : ListSnapshotBinding) (r : ListSnapshotRequest) : Bool :=
  b.owner == r.owner && b.path == r.path && b.sort.text == r.sort && b.order.text == r.order &&
    b.query.text == r.query && b.limit == r.limit

structure ListSnapshotRecord where
  secret : ByteBlock 32
  binding : ListSnapshotBinding
  paths : List PathItem
  expiresAt : ℕ
  weight : ℕ
  deriving DecidableEq

/-- A range of the paths of a snapshot. -/
structure ListSnapshotPage where
  paths : List PathItem
  start : ℕ
  stop : ℕ
  nextCursor : Option (List UInt8)
  deriving DecidableEq

def ListSnapshotPage.fromVec (paths : List PathItem) (nextCursor : Option (List UInt8)) :
    ListSnapshotPage :=
  ⟨paths, 0, paths.length, nextCursor⟩

/-- `ListSnapshotPage::paths`. -/
def ListSnapshotPage.entries (page : ListSnapshotPage) : List PathItem :=
  (page.paths.take page.stop).drop page.start

variable (P : Platform) (s : ListSnapshotStore)

def listSnapshotWeight (binding : ListSnapshotBinding) (paths : List PathItem)
    (pathCapacity : ℕ) : ℕ :=
  let fixed := saturatingAdd P.recordBytes (saturatingMul pathCapacity P.itemBytes)
  let bound := saturatingAdd (saturatingAdd (saturatingAdd (saturatingAdd fixed binding.path.length)
    binding.sort.capacity) binding.order.capacity) binding.query.capacity
  paths.foldl (fun weight item =>
    saturatingAdd (saturatingAdd weight item.name.capacity) item.sortName.capacity) bound

/-! ### The store -/

structure ListSnapshotStore where
  snapshots : AList fun _ : ByteBlock 32 => ListSnapshotRecord
  insertionOrder : List (ByteBlock 32)
  totalWeight : ℕ

namespace ListSnapshotStore

def empty : ListSnapshotStore := ⟨∅, [], 0⟩

/-- `remove_oldest`, with the part of the queue that is left. -/
def removeOldestFrom (s : ListSnapshotStore) : List (ByteBlock 32) → ListSnapshotStore
  | [] => { s with insertionOrder := [] }
  | id :: rest =>
    match s.snapshots.lookup id with
    | some snapshot => ⟨s.snapshots.erase id, rest, s.totalWeight - snapshot.weight⟩
    | none => s.removeOldestFrom rest

variable (owner : ByteBlock 32) (s : ListSnapshotStore)

def removeOldest : ListSnapshotStore := s.removeOldestFrom s.insertionOrder

/-- A round of the loop in `purge_expired`. -/
def purgeRound (now : ℕ) (s : ListSnapshotStore) : Option ListSnapshotStore :=
  match s.insertionOrder with
  | [] => none
  | id :: _ =>
    if (s.snapshots.lookup id).all fun snapshot => decide (snapshot.expiresAt ≤ now) then
      some s.removeOldest
    else none

def purgeExpired (rounds now : ℕ) (s : ListSnapshotStore) : Option ListSnapshotStore :=
  Loop.iterate (purgeRound now) rounds s

def ownerUsage : ℕ × ℕ :=
  (s.snapshots.entries.filter fun e => e.2.binding.owner = owner).foldl
    (fun (usage : ℕ × ℕ) e => (saturatingAdd usage.1 1, saturatingAdd usage.2 e.2.weight)) (0, 0)

/-- There is no result if the owner has no snapshot. -/
def removeOldestForOwner :
    Option ListSnapshotStore := do
  let id ← s.insertionOrder.find? fun id =>
    (s.snapshots.lookup id).any fun snapshot => decide (snapshot.binding.owner = owner)
  let snapshot ← s.snapshots.lookup id
  some ⟨s.snapshots.erase id, s.insertionOrder.erase id, s.totalWeight - snapshot.weight⟩

/-- A round of the first loop in `make_room`. -/
def ownerRound (weight : ℕ) (s : ListSnapshotStore) :
    Option ListSnapshotStore :=
  let usage := s.ownerUsage owner
  if usage.1 < maxCachedListSnapshotsPerOwner ∧
      saturatingAdd usage.2 weight ≤ maxCachedListSnapshotBytesPerOwner then none
  else s.removeOldestForOwner owner

/-- A round of the second loop in `make_room`. -/
def globalRound (weight : ℕ) (s : ListSnapshotStore) : Option ListSnapshotStore :=
  if s.snapshots.entries ≠ [] ∧ (maxCachedListSnapshots ≤ s.snapshots.entries.length ∨
      maxCachedListSnapshotBytes < saturatingAdd s.totalWeight weight) then some s.removeOldest
  else none

def makeRoom (rounds : ℕ) (owner : ByteBlock 32) (weight : ℕ) (s : ListSnapshotStore) :
    Option ListSnapshotStore :=
  (Loop.iterate (ownerRound owner weight) rounds s).bind (Loop.iterate (globalRound weight) rounds)

end ListSnapshotStore

inductive ListSnapshotLookupError where
  | directoryChanged
  | invalidBinding
  | unavailable
  deriving DecidableEq

/-- The part of `ListSnapshotStore::page` that follows the purge. -/
def ListSnapshotStore.cut (cursor : DecodedListCursor)
    (request : ListSnapshotRequest) : Except ListSnapshotLookupError ListSnapshotPage :=
  match s.snapshots.lookup cursor.id with
  | none => .error .unavailable
  | some snapshot =>
    if listCursorTag P snapshot.secret cursor.id cursor.offset ≠ cursor.tag then .error .unavailable
    else if ¬ snapshot.binding.matchesRequest request then .error .invalidBinding
    else if snapshot.binding.directory ≠ request.directory then .error .directoryChanged
    else if usizeMax < cursor.offset then .error .unavailable
    else if cursor.offset = 0 ∨ snapshot.paths.length ≤ cursor.offset then .error .unavailable
    else
      let stop := min (saturatingAdd cursor.offset snapshot.binding.limit) snapshot.paths.length
      .ok {
        paths := snapshot.paths
        start := cursor.offset
        stop := stop
        nextCursor :=
          if stop < snapshot.paths.length then
            some (encodeListCursor P cursor.id snapshot.secret stop)
          else none }

/-- `ListSnapshotStore::page`. -/
def ListSnapshotStore.page (rounds : ℕ) (cursor : DecodedListCursor)
    (request : ListSnapshotRequest) (now : ℕ) (s : ListSnapshotStore) :
    Option (ListSnapshotStore × Except ListSnapshotLookupError ListSnapshotPage) :=
  (s.purgeExpired rounds now).map fun s' => (s', s'.cut P cursor request)

/-- Everything a listing can fail with. -/
inductive ListingProblem where
  | unsupportedFilename
  | directoryAccessForbidden
  | directoryChanged
  | directoryOperationTimeout
  | directoryOperationFailed
  | serverStopping
  | directorySymlinkLoop
  | directoryListingEntryLimit
  | directoryWalkEntryLimit
  | directoryDepthLimit
  | directoryMemoryLimit
  | searchResultLimit
  | listSnapshotLimit
  | listSnapshotAllocationFailed
  | directorySortLimit
  deriving DecidableEq

/-- The path is only logged, relative to the served root. -/
structure ListingError where
  operation : String
  path : List UInt8
  reason : String
  problem : ListingProblem
  deriving DecidableEq

/-- The first of eight draws that succeeds with an identifier that is free. -/
def freshIdentifier (draws : List (Option (ByteBlock 32 × ByteBlock 32))) :
    Option (ByteBlock 32 × ByteBlock 32) :=
  (draws.take 8).findSome? fun drawn =>
    drawn.bind fun random => if random.1 ∈ s.snapshots then none else some random

/-- `ListSnapshotCache::cache`. The draws are what `getrandom` returns. -/
def ListSnapshotStore.cache (rounds : ℕ) (binding : ListSnapshotBinding)
    (paths : PathVec) (now : ℕ) (draws : List (Option (ByteBlock 32 × ByteBlock 32)))
    (s : ListSnapshotStore) : Option (ListSnapshotStore × Except ListingError ListSnapshotPage) :=
  let weight := listSnapshotWeight P binding paths.items paths.capacity
  if maxCachedListSnapshotBytesPerOwner < weight then
    some (s, .error ⟨"list_snapshot_cache", binding.path, "snapshot_memory_budget",
      .listSnapshotLimit⟩)
  else do
    let purged ← s.purgeExpired rounds now
    let roomy ← purged.makeRoom rounds binding.owner weight
    match freshIdentifier roomy draws with
    | none =>
      some (roomy, .error ⟨"list_snapshot_cache", binding.path, "random_cursor_generation",
        .directoryOperationFailed⟩)
    | some (id, secret) =>
      let snapshot : ListSnapshotRecord :=
        ⟨secret, binding, paths.items, now + listSnapshotTtl, weight⟩
      some (⟨roomy.snapshots.insert id snapshot, roomy.insertionOrder ++ [id],
          saturatingAdd roomy.totalWeight weight⟩,
        .ok ⟨paths.items, 0, binding.limit, some (encodeListCursor P id secret binding.limit)⟩)

/-! ### Sequences of calls -/

inductive Call where
  | cache (binding : ListSnapshotBinding) (paths : PathVec) (now : ℕ)
      (draws : List (Option (ByteBlock 32 × ByteBlock 32)))
  | page (cursor : DecodedListCursor) (request : ListSnapshotRequest) (now : ℕ)
  | purgeExpired (now : ℕ)
  | removeOldest
  | removeOldestForOwner (owner : ByteBlock 32)
  | makeRoom (owner : ByteBlock 32) (weight : ℕ)

inductive Answer where
  | cached (result : Except ListingError ListSnapshotPage)
  | paged (result : Except ListSnapshotLookupError ListSnapshotPage)
  | done

/-- The rounds that are enough for a loop, as no round of a loop leaves the queue as it is. -/
def ListSnapshotStore.rounds : ℕ := s.insertionOrder.length + 1

/-- A call under the lock. -/
def ListSnapshotStore.perform :
    Call → Option (ListSnapshotStore × Answer)
  | .cache binding paths now draws =>
    (s.cache P s.rounds binding paths now draws).map (Prod.map id .cached)
  | .page cursor request now => (s.page P s.rounds cursor request now).map (Prod.map id .paged)
  | .purgeExpired now => (s.purgeExpired s.rounds now).map fun s' => (s', .done)
  | .removeOldest => some (s.removeOldest, .done)
  | .removeOldestForOwner owner => some ((s.removeOldestForOwner owner).getD s, .done)
  | .makeRoom owner weight => (s.makeRoom s.rounds owner weight).map fun s' => (s', .done)

/-- The store under calls by anybody, with any values of the clock. -/
def storeMachine : Transition.Machine ListSnapshotStore Call where
  init := .empty
  step s c := (s.perform P c).map Prod.fst

end DufsRam.Listing
