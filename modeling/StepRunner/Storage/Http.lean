import StepRunner.Storage.Address
import StepRunner.Storage.Network
import StepRunner.Storage.Page
import StepRunner.Url.Parser

namespace StepRunner

/-- A server that lists objects below one URL and gives them out below another. -/
structure HttpStorage where
  apiBase : String
  downloadBase : String
deriving DecidableEq, Repr

namespace HttpStorage

/-- Where listings are asked for. -/
def defaultApiBase : String := "https://storage.googleapis.com/storage/v1"

/-- Where objects are asked for. -/
def defaultDownloadBase : String := "https://storage.googleapis.com"

/-- The server below two URLs, whose slashes at the end do not count. -/
def ofBases (apiBase downloadBase : String) : HttpStorage :=
  ⟨String.ofList (Storage.trimEndSlashes apiBase.toList),
    String.ofList (Storage.trimEndSlashes downloadBase.toList)⟩

/-- The URL `base` with segments added to its path. -/
def withSegments (base : String) (segments : List (List Char)) : Except StorageError Url :=
  match Url.parse base with
  | .error e => .error (.invalidUrl (base ++ ": " ++ e.message))
  | .ok url =>
    match url.extend? segments with
    | some url => .ok url
    | none => .error (.invalidUrl base)

/-- Where the objects of a bucket are listed. -/
def listUrl (server : HttpStorage) (bucket : String) : Except StorageError Url :=
  withSegments server.apiBase [['b'], bucket.toList, ['o']]

/-- Where an object of a bucket is found: each part of its name is a segment. -/
def objectUrl (server : HttpStorage) (bucket name : String) : Except StorageError Url :=
  withSegments server.downloadBase
    (bucket.toList :: (Text.pieces '/' name.toList).filter (· ≠ []))

/-- What the names of all objects below a directory begin with. -/
def namesStart (basePath dir : String) : List Char :=
  let dir := Storage.trimSlashes (Storage.joinUrl basePath dir).toList
  if dir = [] then [] else dir ++ ['/']

/-- The object that an item of a page tells of, if it lies below the directory and is not one
    itself. -/
def itemObject? (namesStart : List Char) (item : Storage.Item) :
    Except StorageError (Option RemoteObject) :=
  match Text.dropStart? namesStart item.name.toList with
  | none => .ok none
  | some relativePath =>
    if relativePath = [] ∨ relativePath.getLast? = some '/' then .ok none
    else
      let found := fun (size : Nat) =>
        Except.ok (some ⟨String.ofList relativePath, item.updated, size⟩)
      match item.size with
      | none => found 0
      | some size =>
        match Text.unsigned? Text.maxWord64 size.toList with
        | some n => found n
        | none => .error (.unreadableListing ("bad size `" ++ size ++ "` for " ++ item.name))

/-- The objects that a page tells of. -/
def pageObjects (namesStart : List Char) (page : Storage.Page) :
    Except StorageError (List RemoteObject) := do
  let found ← page.items.mapM (itemObject? namesStart)
  return found.filterMap id

/-- Asks for one page. -/
def fetchPage (server : HttpStorage) (bucket : String) (namesStart : List Char)
    (token : Option String) : Action Network StorageError Storage.Page := do
  let url ← ExceptT.mk (pure (server.listUrl bucket))
  let fields := ("prefix".toList, namesStart) ::
    (token.map fun t => ("pageToken".toList, t.toList)).toList
  let reply ← Network.request url fields
  if !reply.isSuccess then
    throw (.http ("listing " ++ url.text ++ " returned " ++ reply.statusText))
  match Storage.Page.parse? (String.ofList (Text.decodeUtf8Lossy reply.body)) with
  | some page => return page
  | none => throw (.json "the page cannot be read")

/-- The objects of all pages from the one that `token` asks for; at most `fuel` of them. -/
def fetchPages (server : HttpStorage) (bucket : String) (namesStart : List Char) :
    (fuel : Nat) → (token : Option String) → Action Network StorageError (List RemoteObject)
  | 0, _ => return []
  | fuel + 1, token => do
    let page ← fetchPage server bucket namesStart token
    let objects ← ExceptT.mk (pure (pageObjects namesStart page))
    match page.nextToken with
    | none => return objects
    | some token => return objects ++ (← fetchPages server bucket namesStart fuel (some token))

/-- Lists a directory. There are no more pages than answers. -/
def list (server : HttpStorage) (base dir : String) :
    Action Network StorageError (List RemoteObject) := do
  let (bucket, basePath) ← ExceptT.mk (pure (Storage.bucketAndPath base))
  let pages := (← get).remote.replies.length + 1
  let objects ← fetchPages server bucket (namesStart basePath dir) pages none
  Action.note .debug .http "Listed objects over HTTP" [("count", .number objects.length)]
  return objects

/-- Downloads an object. -/
def download (server : HttpStorage) (base dir : String) (object : RemoteObject)
    (destination : String) : Action Network StorageError Unit := do
  let (bucket, basePath) ← ExceptT.mk (pure (Storage.bucketAndPath base))
  let name := Storage.joinUrl (Storage.joinUrl basePath dir) object.relativePath
  let url ← ExceptT.mk (pure (server.objectUrl bucket name))
  let reply ← Network.request url []
  if !reply.isSuccess then
    throw (.http ("download of " ++ url.text ++ " returned " ++ reply.statusText))
  let now := (← get).machine.now
  Action.onDisk .io fun here => Disk.writeFile now here destination reply.body

/-- The server as storage. -/
def storage (server : HttpStorage) : Storage Network := ⟨server.list, server.download⟩

end HttpStorage

end StepRunner
