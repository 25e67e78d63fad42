/-
# Requests and responses

What a client sends to the service and what it gets back. Only those parts
are kept that one of the two looks at.

Key definitions: `Http.Method`, `Http.Request`, `Http.Response`,
`Http.reason?`.
-/
namespace EfsControl
namespace Http

/-- What a request wants to do with what it names. -/
inductive Method
  | get
  | head
  | post
  | other (name : String)
  deriving DecidableEq

namespace Method

/-- The word in a request. -/
def name : Method → String
  | get => "GET"
  | head => "HEAD"
  | post => "POST"
  | other name => name

/-- The method of a word. -/
def named (name : String) : Method :=
  if name = "GET" then get else if name = "HEAD" then head
  else if name = "POST" then post else other name

end Method

/-- A request. -/
structure Request where
  method : Method
  /-- The path, and a query if there is one. -/
  target : String
  host : Option String := none
  contentType : Option String := none
  body : List UInt8 := []
  deriving DecidableEq

namespace Request

/-- What follows the name of a scheme, where there is one. -/
def afterScheme? : List Char → Option (List Char)
  | ':' :: '/' :: '/' :: rest => some rest
  | _ :: rest => afterScheme? rest
  | [] => none

/-- The path of a request, without what is asked about it. A target may name a scheme and a host in
front of its path; with nothing behind the host, the path is the root. -/
def path (r : Request) : String :=
  let named := r.target.toList.takeWhile fun c => c != '?' && c != '#'
  match named, afterScheme? named with
  | '/' :: _, _ | _, none => String.ofList named
  | _, some rest =>
    match rest.dropWhile (· != '/') with
    | [] => "/"
    | path => String.ofList path

/-- The first line of a request. -/
def line (r : Request) : String := r.method.name ++ " " ++ r.target ++ " HTTP/1.1"

end Request

/-- A response of the service. -/
structure Response where
  status : Nat
  /-- The text of a body that is JSON; empty where only the head was asked for. -/
  json? : Option String := none
  deriving DecidableEq

namespace Response

/-- A response that is nothing but its status. -/
def ofStatus (status : Nat) : Response := { status := status }

/-- The response to a request for the head only. -/
def headOnly (r : Response) : Response := { r with json? := r.json?.map fun _ => "" }

end Response

namespace Status

/-- The status of a success. -/
def ok : Nat := 200

/-- The body is not what it is announced to be. -/
def badRequest : Nat := 400

/-- Nothing is there. -/
def notFound : Nat := 404

/-- The method does not fit. -/
def methodNotAllowed : Nat := 405

/-- The body is too long. -/
def tooLarge : Nat := 413

/-- The body is not announced as one of JSON. -/
def unsupportedMediaType : Nat := 415

/-- The body is JSON of the wrong shape. -/
def unprocessable : Nat := 422

/-- Whether a status says that all went well. -/
def isSuccess (status : Nat) : Bool := 200 ≤ status && status < 300

end Status

/-- The phrase that goes with a status, where it has one. -/
def reason? : Nat → Option String
  | 100 => some "Continue"
  | 101 => some "Switching Protocols"
  | 102 => some "Processing"
  | 200 => some "OK"
  | 201 => some "Created"
  | 202 => some "Accepted"
  | 203 => some "Non Authoritative Information"
  | 204 => some "No Content"
  | 205 => some "Reset Content"
  | 206 => some "Partial Content"
  | 207 => some "Multi-Status"
  | 208 => some "Already Reported"
  | 226 => some "IM Used"
  | 300 => some "Multiple Choices"
  | 301 => some "Moved Permanently"
  | 302 => some "Found"
  | 303 => some "See Other"
  | 304 => some "Not Modified"
  | 305 => some "Use Proxy"
  | 307 => some "Temporary Redirect"
  | 308 => some "Permanent Redirect"
  | 400 => some "Bad Request"
  | 401 => some "Unauthorized"
  | 402 => some "Payment Required"
  | 403 => some "Forbidden"
  | 404 => some "Not Found"
  | 405 => some "Method Not Allowed"
  | 406 => some "Not Acceptable"
  | 407 => some "Proxy Authentication Required"
  | 408 => some "Request Timeout"
  | 409 => some "Conflict"
  | 410 => some "Gone"
  | 411 => some "Length Required"
  | 412 => some "Precondition Failed"
  | 413 => some "Payload Too Large"
  | 414 => some "URI Too Long"
  | 415 => some "Unsupported Media Type"
  | 416 => some "Range Not Satisfiable"
  | 417 => some "Expectation Failed"
  | 418 => some "I'm a teapot"
  | 421 => some "Misdirected Request"
  | 422 => some "Unprocessable Entity"
  | 423 => some "Locked"
  | 424 => some "Failed Dependency"
  | 426 => some "Upgrade Required"
  | 428 => some "Precondition Required"
  | 429 => some "Too Many Requests"
  | 431 => some "Request Header Fields Too Large"
  | 451 => some "Unavailable For Legal Reasons"
  | 500 => some "Internal Server Error"
  | 501 => some "Not Implemented"
  | 502 => some "Bad Gateway"
  | 503 => some "Service Unavailable"
  | 504 => some "Gateway Timeout"
  | 505 => some "HTTP Version Not Supported"
  | 506 => some "Variant Also Negotiates"
  | 507 => some "Insufficient Storage"
  | 508 => some "Loop Detected"
  | 510 => some "Not Extended"
  | 511 => some "Network Authentication Required"
  | _ => none

/-- A status as it is shown: the number and its phrase. -/
def describeStatus (status : Nat) : String :=
  toString status ++ " " ++ (reason? status).getD "<unknown status code>"

end Http
end EfsControl
