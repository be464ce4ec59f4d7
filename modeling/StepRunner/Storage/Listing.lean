import StepRunner.Storage.Address
import StepRunner.Storage.Object
import StepRunner.Time.Timestamp.Reader

namespace StepRunner.Storage.Listing

/-- Splits off the first word of a text. Something has to follow it after the blanks. -/
def nextField? (text : List Char) : Option (List Char × List Char) :=
  let text := Text.trimStart Text.isBlank text
  let word := text.takeWhile (!Text.isBlank ·)
  let rest := Text.trimStart Text.isBlank (text.drop word.length)
  if rest = [] then none else some (word, rest)

/-- Whether a trimmed line tells of no object: it is empty, a total or the header of a
    directory. -/
def isHeading (trimmed : List Char) : Bool :=
  trimmed.isEmpty || "TOTAL:".toList.isPrefixOf trimmed ||
    ("gs://".toList.isPrefixOf trimmed && trimmed.getLast? = some ':')

/-- The object that a line tells of, if it is one below `dirSlash`. A line has a size, a time and
    a URL, which may hold blanks. -/
def object? (dirSlash line : List Char) : Except StorageError (Option RemoteObject) :=
  let line := Text.trimEnd (· = '\r') line
  let trimmed := Text.trim Text.isBlank line
  let complaint := fun (what : String) =>
    Except.error (.unreadableListing (what ++ " line `" ++ String.ofList trimmed ++ "`"))
  if isHeading trimmed then .ok none
  else
    match (nextField? line).bind fun (size, rest) => (nextField? rest).map (size, ·) with
    | none => if Text.occurs dirSlash trimmed then complaint "unparseable listing" else .ok none
    | some (size, updated, url) =>
      if url.getLast? = some '/' then .ok none
      else
        match Text.dropStart? dirSlash url with
        | none => .ok none
        | some relativePath =>
          match Text.unsigned? Text.maxWord64 size, Timestamp.readStrict? updated with
          | none, _ => complaint "bad size in"
          | some _, none => complaint "bad timestamp in"
          | some size, some updated => .ok (some ⟨String.ofList relativePath, updated, size⟩)

/-- The objects below a directory that a long listing tells of. -/
def objects (listing dir : String) : Except StorageError (List RemoteObject) := do
  let dirSlash := trimEndSlashes dir.toList ++ ['/']
  let found ← (Text.lines listing.toList).mapM (object? dirSlash)
  return found.filterMap id

end StepRunner.Storage.Listing
