import DufsRam.Listing.Cache
import DufsRam.Upload.Protocol

/-!
# The list API

`handle_list_api`: a request without a cursor walks the directory, which it inspects before and
afterwards, and is answered with the first page; if there are more paths than fit, they are kept as
a snapshot. A request with a cursor is answered from the snapshot. What the request meets outside of
the store (the walk, the inspections, the clock, random bytes) is part of the request; the sorting
and filtering of the walk is left out.
-/

namespace DufsRam.Listing

def defaultListPageSize : ℕ := 200

def maxListPageSize : ℕ := 500

structure ApiError where
  status : ℕ
  code : String
  detail : String
  recovery : RecoveryAdvice
  deriving DecidableEq

inductive ListResponse where
  | page (page : ListSnapshotPage)
  | problem (error : ApiError)
  /-- The handler fails. -/
  | failed
  deriving DecidableEq

/-! ### Errors of a listing -/

namespace ListingProblem

def status : ListingProblem → ℕ
  | unsupportedFilename | directoryChanged | directorySymlinkLoop => 409
  | directoryAccessForbidden => 403
  | directoryOperationTimeout => 504
  | directoryOperationFailed => 500
  | serverStopping => 503
  | directoryListingEntryLimit | directoryWalkEntryLimit | directoryDepthLimit
  | directoryMemoryLimit | searchResultLimit | listSnapshotLimit | listSnapshotAllocationFailed
  | directorySortLimit => 413

def publicMessage : ListingProblem → String
  | unsupportedFilename => "The folder contains an unsupported non-UTF-8 name. Rename it on Linux."
  | directoryAccessForbidden => "Forbidden"
  | directoryChanged => "The folder changed during traversal. Try again."
  | directoryOperationTimeout => "Directory operation timed out"
  | directoryOperationFailed => "Directory operation failed"
  | serverStopping => "Server is stopping"
  | directorySymlinkLoop => "Directory symlink loop detected"
  | directoryListingEntryLimit => "Directory listing exceeded its entry limit"
  | directoryWalkEntryLimit => "Directory operation exceeded its entry limit"
  | directoryDepthLimit => "Directory traversal exceeded its depth limit"
  | directoryMemoryLimit => "Directory traversal exceeds the memory limit"
  | searchResultLimit => "Search results exceed the memory limit"
  | listSnapshotLimit | listSnapshotAllocationFailed =>
    "Directory listing exceeds the snapshot capacity"
  | directorySortLimit => "Directory sorting exceeds the memory limit"

def code : ListingProblem → String
  | unsupportedFilename => "unsupported_filename"
  | directoryAccessForbidden => "directory_access_forbidden"
  | directoryChanged => "directory_changed"
  | directoryOperationTimeout => "directory_operation_timeout"
  | serverStopping => "server_stopping"
  | directorySymlinkLoop => "directory_symlink_loop"
  | directoryListingEntryLimit | directoryWalkEntryLimit => "directory_entry_limit"
  | directoryDepthLimit => "directory_depth_limit"
  | directoryMemoryLimit => "directory_memory_limit"
  | searchResultLimit => "search_result_limit"
  | listSnapshotLimit | listSnapshotAllocationFailed => "list_snapshot_limit"
  | directorySortLimit => "directory_sort_limit"
  | directoryOperationFailed => "directory_operation_failed"

def recovery : ListingProblem → RecoveryAdvice
  | unsupportedFilename | directoryChanged | directorySymlinkLoop => .refreshTarget
  | directoryOperationTimeout => .retry
  | serverStopping => .retryAfterSeconds 1
  | _ => .none

end ListingProblem

def respondListApiListingError (error : ListingError) : ListResponse :=
  .problem ⟨error.problem.status, error.problem.code, error.problem.publicMessage,
    error.problem.recovery⟩

inductive IoKind where
  | notFound
  | notADirectory
  | permissionDenied
  | invalidData
  | timedOut
  | other
  deriving DecidableEq

/-- An error of the operating system, with what is logged of it. -/
structure IoError where
  kind : IoKind
  detail : String
  deriving DecidableEq

/-- `ListingError::io`. -/
def ListingError.io (operation : String) (path : List UInt8) (error : IoError) : ListingError where
  operation := operation
  path := path
  reason := error.detail
  problem :=
    match error.kind with
    | .permissionDenied => .directoryAccessForbidden
    | .invalidData => .unsupportedFilename
    | .notFound | .notADirectory => .directoryChanged
    | .timedOut => .directoryOperationTimeout
    | .other => .directoryOperationFailed

/-! ### Requests -/

structure ListQuery where
  path : Option (List UInt8)
  sort : Option (List UInt8)
  order : Option (List UInt8)
  q : Option (List UInt8)
  limit : Option (List UInt8)
  cursor : Option (List UInt8)

/-- What an inspection of the listed path finds; a directory is described by its identity. -/
abbrev Inspection := Except IoError (Option DirectorySnapshot)

structure ListRequest where
  account : List UInt8
  query : ListQuery
  /-- There is a free search slot. -/
  admitted : Bool
  before : Inspection
  /-- The result of the walk, if its task does not fail. -/
  walk : Option (Except ListingError PathVec)
  after : Inspection
  now : ℕ
  draws : List (Option (ByteBlock 32 × ByteBlock 32))

/-- The platform and the policy that resolves a logical path. -/
structure Service where
  platform : Platform
  parseListTarget : List UInt8 → Option (List UInt8)

/-- `str::parse::<usize>`. -/
def parseUsize (text : List UInt8) : Option ℕ :=
  let digits := if text.head? = some 43 then text.tail else text
  if digits ≠ [] ∧ digits.all fun d => decide (48 ≤ d ∧ d ≤ 57) then
    let value := digits.foldl (fun n d => n * 10 + (d.toNat - 48)) 0
    if value ≤ usizeMax then some value else none
  else none

/-- The number of characters of a text in UTF-8. -/
def charCount (text : List UInt8) : ℕ := text.countP fun b => decide (b &&& 0xc0 ≠ 0x80)

/-- The parameters of a request, with the cursor that it continues from. -/
structure ListParameters where
  path : List UInt8
  sort : List UInt8
  order : List UInt8
  query : List UInt8
  limit : ℕ
  cursor : Option DecodedListCursor
  deriving DecidableEq

variable (S : Service)

def listTarget (path : Option (List UInt8)) : Except ApiError (List UInt8) :=
  match S.parseListTarget (path.getD (ascii "/")) with
  | some path => .ok path
  | none => .error ⟨400, "invalid_list_path", "Invalid list path", .none⟩

def listSort (sort : Option (List UInt8)) : List UInt8 :=
  (sort.filter fun value => [ascii "name", ascii "mtime", ascii "size"].contains value).getD
    (ascii "name")

def listOrder (order : Option (List UInt8)) : List UInt8 :=
  (order.filter fun value => [ascii "asc", ascii "desc"].contains value).getD (ascii "asc")

def listSearch (q : Option (List UInt8)) : Except ApiError (List UInt8) :=
  if 128 < charCount (q.getD []) then
    .error ⟨400, "search_query_too_long", "Search query is too long", .none⟩
  else .ok (q.getD [])

def listLimit : Option (List UInt8) → Except ApiError ℕ
  | none => .ok defaultListPageSize
  | some value =>
    match (parseUsize value).filter fun limit => decide (1 ≤ limit ∧ limit ≤ maxListPageSize) with
    | some limit => .ok limit
    | none => .error ⟨400, "invalid_list_limit", "Invalid list limit", .none⟩

def listCursor : Option (List UInt8) → Except ApiError (Option DecodedListCursor)
  | none => .ok none
  | some value =>
    match decodeListCursor value with
    | .ok cursor => .ok (some cursor)
    | .error _ => .error ⟨400, "invalid_list_cursor", "Invalid list cursor", .none⟩

/-- The first part of `handle_list_api`. -/
def parseListQuery (q : ListQuery) : Except ApiError ListParameters := do
  let path ← listTarget S q.path
  let query ← listSearch q.q
  let limit ← listLimit q.limit
  let cursor ← listCursor q.cursor
  pure ⟨path, listSort q.sort, listOrder q.order, query, limit, cursor⟩

/-- The inspection before the walk. -/
def inspectBefore : Inspection → Except ListResponse DirectorySnapshot
  | .ok (some directory) => .ok directory
  | .ok none => .error (.problem ⟨409, "list_path_not_directory", "List path is not a directory",
      .refreshTarget⟩)
  | .error ⟨.notFound, _⟩ | .error ⟨.notADirectory, _⟩ =>
    .error (.problem ⟨404, "list_path_not_found", "List path was not found", .refreshTarget⟩)
  | .error _ => .error .failed

def directorySnapshotAfterWalk (path : List UInt8) :
    Inspection → Except ListingError DirectorySnapshot
  | .ok (some directory) => .ok directory
  | .ok none => .error ⟨"list_snapshot_after", path, "directory_replaced_by_non_directory",
      .directoryChanged⟩
  | .error error => .error (.io "list_snapshot_after" path error)

def directoryChangedProblem : ListResponse :=
  .problem ⟨409, "directory_changed", "Directory changed; restart listing", .refreshTarget⟩

/-- The response to a request with a cursor. -/
def respondPage : Except ListSnapshotLookupError ListSnapshotPage → ListResponse
  | .ok page => .page page
  | .error .invalidBinding =>
    .problem ⟨400, "invalid_list_cursor", "Invalid list cursor", .none⟩
  | .error .directoryChanged => directoryChangedProblem
  | .error .unavailable => .problem ⟨409, "list_cursor_unavailable",
      "List cursor expired or is unavailable; restart listing", .refreshTarget⟩

def respondCached : Except ListingError ListSnapshotPage → ListResponse
  | .ok page => .page page
  | .error error => respondListApiListingError error

/-- A copy of a text, which is allocated as long as it is. -/
def HeapString.copy (text : List UInt8) : HeapString := ⟨text, text.length⟩

namespace ListParameters

def binding (p : ListParameters) (owner : ByteBlock 32) (directory : DirectorySnapshot) :
    ListSnapshotBinding :=
  ⟨owner, p.path, directory, .copy p.sort, .copy p.order, .copy p.query, p.limit⟩

def request (p : ListParameters) (owner : ByteBlock 32) (directory : DirectorySnapshot) :
    ListSnapshotRequest :=
  ⟨owner, p.path, directory, p.sort, p.order, p.query, p.limit⟩

end ListParameters

/-- The part of `handle_list_api` that follows the walk. -/
def respondFirst (r : ListRequest) (p : ListParameters) (before : DirectorySnapshot)
    (paths : PathVec) (s : ListSnapshotStore) : Option (ListSnapshotStore × ListResponse) :=
  match directorySnapshotAfterWalk p.path r.after with
  | .error error => some (s, respondListApiListingError error)
  | .ok after =>
    if after ≠ before then some (s, directoryChangedProblem)
    else if p.limit < paths.items.length then
      (s.cache S.platform s.rounds (p.binding (listSnapshotOwner S.platform r.account) before) paths
        r.now r.draws).map (Prod.map id respondCached)
    else some (s, .page (.fromVec paths.items none))

def handleListApi (r : ListRequest) (s : ListSnapshotStore) :
    Option (ListSnapshotStore × ListResponse) :=
  match parseListQuery S r.query with
  | .error error => some (s, .problem error)
  | .ok p =>
    if p.cursor = none ∧ ¬ r.admitted then
      some (s, .problem ⟨429, "directory_operation_limit",
        "Too many directory operations are running", .retryAfterSeconds 1⟩)
    else match inspectBefore r.before with
      | .error response => some (s, response)
      | .ok before =>
        match p.cursor with
        | some cursor =>
          (s.page S.platform s.rounds cursor
            (p.request (listSnapshotOwner S.platform r.account) before) r.now).map
              (Prod.map id respondPage)
        | none =>
          match r.walk with
          | none => some (s, .failed)
          | some (.error error) => some (s, respondListApiListingError error)
          | some (.ok paths) => respondFirst S r p before paths s

/-! ### Requests and other calls -/

/-- A request to the API, or any other call of the store. -/
inductive Event where
  | list (request : ListRequest)
  | call (call : Call)

/-- The page that is the answer of a call, if there is one. -/
def Answer.response : Answer → ListResponse
  | .cached result => respondCached result
  | .paged result => respondPage result
  | .done => .failed

def respond (s : ListSnapshotStore) : Event → Option (ListSnapshotStore × ListResponse)
  | .list r => handleListApi S r s
  | .call c => (s.perform S.platform c).map (Prod.map id Answer.response)

def machine : Transition.Machine ListSnapshotStore Event where
  init := .empty
  step s e := (respond S s e).map Prod.fst

end DufsRam.Listing
