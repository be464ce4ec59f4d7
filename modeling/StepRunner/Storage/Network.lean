import StepRunner.Storage.Object
import StepRunner.Url.Basic

namespace StepRunner

/-- An answer of a server. -/
structure Reply where
  status : Nat
  body : List UInt8
deriving DecidableEq, Repr

/-- The network: whether servers can be reached, the answers that are still to come and the
    requests so far. -/
structure Network where
  reachable : Bool
  replies : List Reply
  requests : List String
deriving DecidableEq, Repr

namespace Reply

/-- Whether the answer tells of success. -/
def isSuccess (reply : Reply) : Bool := 200 ≤ reply.status && reply.status < 300

/-- What a status number means. -/
def reason? : Nat → Option String
  | 100 => "Continue"
  | 101 => "Switching Protocols"
  | 102 => "Processing"
  | 103 => "Early Hints"
  | 200 => "OK"
  | 201 => "Created"
  | 202 => "Accepted"
  | 203 => "Non Authoritative Information"
  | 204 => "No Content"
  | 205 => "Reset Content"
  | 206 => "Partial Content"
  | 207 => "Multi-Status"
  | 208 => "Already Reported"
  | 226 => "IM Used"
  | 300 => "Multiple Choices"
  | 301 => "Moved Permanently"
  | 302 => "Found"
  | 303 => "See Other"
  | 304 => "Not Modified"
  | 305 => "Use Proxy"
  | 307 => "Temporary Redirect"
  | 308 => "Permanent Redirect"
  | 400 => "Bad Request"
  | 401 => "Unauthorized"
  | 402 => "Payment Required"
  | 403 => "Forbidden"
  | 404 => "Not Found"
  | 405 => "Method Not Allowed"
  | 406 => "Not Acceptable"
  | 407 => "Proxy Authentication Required"
  | 408 => "Request Timeout"
  | 409 => "Conflict"
  | 410 => "Gone"
  | 411 => "Length Required"
  | 412 => "Precondition Failed"
  | 413 => "Payload Too Large"
  | 414 => "URI Too Long"
  | 415 => "Unsupported Media Type"
  | 416 => "Range Not Satisfiable"
  | 417 => "Expectation Failed"
  | 418 => "I'm a teapot"
  | 421 => "Misdirected Request"
  | 422 => "Unprocessable Entity"
  | 423 => "Locked"
  | 424 => "Failed Dependency"
  | 425 => "Too Early"
  | 426 => "Upgrade Required"
  | 428 => "Precondition Required"
  | 429 => "Too Many Requests"
  | 431 => "Request Header Fields Too Large"
  | 451 => "Unavailable For Legal Reasons"
  | 500 => "Internal Server Error"
  | 501 => "Not Implemented"
  | 502 => "Bad Gateway"
  | 503 => "Service Unavailable"
  | 504 => "Gateway Timeout"
  | 505 => "HTTP Version Not Supported"
  | 506 => "Variant Also Negotiates"
  | 507 => "Insufficient Storage"
  | 508 => "Loop Detected"
  | 510 => "Not Extended"
  | 511 => "Network Authentication Required"
  | _ => none

/-- The status and what it means. -/
def statusText (reply : Reply) : String :=
  toString reply.status ++ " " ++ (reason? reply.status).getD "<unknown status code>"

end Reply

namespace Network

/-- What a server answers when no answer is left. -/
def exhausted : Reply := ⟨500, []⟩

/-- The most characters of a URL that a request can have. -/
def maxUrl : Nat := 65534

/-- Whether the user of a URL is text. -/
def userIsText (url : Url) : Bool :=
  url.authority.all fun a => (Text.decodeUtf8? (Url.percentDecode a.user)).isSome

/-- Whether a request can be sent to the host of a URL. -/
def isSendable (url : Url) : Bool :=
  ["http", "https"].contains (String.ofList url.scheme) && url.text.length ≤ maxUrl &&
    match url.host? with
    | some (.domain name) => !name.any "\"`\x7b\x7d".toList.contains
    | _ => true

/-- The error of a request that was not sent or not answered. -/
def failure (what : String) (url : Url) : StorageError :=
  .http (what ++ " for url (" ++ url.text ++ ")")

/-- The URL that is requested: without its user, and with fields added to its query. -/
def requestUrl (url : Url) (fields : List (List Char × List Char)) : Url :=
  let url := if userIsText url then url.withoutUser else url
  if fields = [] then url else url.withFields fields

/-- Asks for a URL with some fields added to its query. -/
def request (url : Url) (fields : List (List Char × List Char)) :
    Action Network StorageError Reply := do
  if url.host?.isNone then throw (failure "builder error" url)
  let url := requestUrl url fields
  if !isSendable url then throw (failure "builder error" url)
  let w ← get
  if !w.remote.reachable then throw (failure "error sending request" url)
  set { w with remote := { w.remote with
    replies := w.remote.replies.tail
    requests := w.remote.requests ++ [{ url with fragment := none }.text] } }
  return w.remote.replies.headD exhausted

end Network

end StepRunner
