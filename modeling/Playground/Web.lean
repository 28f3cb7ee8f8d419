import Playground.Digest

/-!
# Requests over the web

What the program sees of the network: requests with an address, and how each of them ends.
-/

namespace Playground

/-- How a request ends. -/
inductive Exchange where
  /-- There was no answer. -/
  | failed (cause : String)
  /-- There was an answer; `complete` tells whether its body came whole. -/
  | answered (status : Nat) (body : ByteArray) (complete : Bool)

/-- What is sent to be stored. -/
structure Upload where
  address : String
  contentType : String
  body : ByteArray

/-- The network: the pages that can be read, and what becomes of uploads. -/
structure Web where
  pages : Named Exchange
  upload : Upload → Exchange

namespace Web

/-- What is said when nobody answers. -/
def noAnswer : String := "error sending request"

/-- The network without a connection. -/
def down : Web := ⟨∅, fun _ => .failed noAnswer⟩

def get (web : Web) (address : String) : Exchange :=
  (web.pages[address]?).getD (.failed noAnswer)

end Web

/-- Whether a status tells of success. -/
def isSuccess (status : Nat) : Bool := 200 ≤ status && status < 300

/-- The standard phrase of a status. -/
def reasonPhrase? (status : Nat) : Option String :=
  match status with
  | 100 => "Continue"
  | 101 => "Switching Protocols"
  | 102 => "Processing"
  | 200 => "OK"
  | 201 => "Created"
  | 202 => "Accepted"
  | 203 => "Non Authoritative Information"
  | 204 => "No Content"
  | 205 => "Reset Content"
  | 206 => "Partial Content"
  | 207 => "Multi-Status"
  | 208 => "Already Reported"
  | 226 => "IM Used"
  | 300 => "Multiple Choices"
  | 301 => "Moved Permanently"
  | 302 => "Found"
  | 303 => "See Other"
  | 304 => "Not Modified"
  | 305 => "Use Proxy"
  | 307 => "Temporary Redirect"
  | 308 => "Permanent Redirect"
  | 400 => "Bad Request"
  | 401 => "Unauthorized"
  | 402 => "Payment Required"
  | 403 => "Forbidden"
  | 404 => "Not Found"
  | 405 => "Method Not Allowed"
  | 406 => "Not Acceptable"
  | 407 => "Proxy Authentication Required"
  | 408 => "Request Timeout"
  | 409 => "Conflict"
  | 410 => "Gone"
  | 411 => "Length Required"
  | 412 => "Precondition Failed"
  | 413 => "Payload Too Large"
  | 414 => "URI Too Long"
  | 415 => "Unsupported Media Type"
  | 416 => "Range Not Satisfiable"
  | 417 => "Expectation Failed"
  | 418 => "I'm a teapot"
  | 421 => "Misdirected Request"
  | 422 => "Unprocessable Entity"
  | 423 => "Locked"
  | 424 => "Failed Dependency"
  | 425 => "Too Early"
  | 426 => "Upgrade Required"
  | 428 => "Precondition Required"
  | 429 => "Too Many Requests"
  | 431 => "Request Header Fields Too Large"
  | 451 => "Unavailable For Legal Reasons"
  | 500 => "Internal Server Error"
  | 501 => "Not Implemented"
  | 502 => "Bad Gateway"
  | 503 => "Service Unavailable"
  | 504 => "Gateway Timeout"
  | 505 => "HTTP Version Not Supported"
  | 506 => "Variant Also Negotiates"
  | 507 => "Insufficient Storage"
  | 508 => "Loop Detected"
  | 510 => "Not Extended"
  | 511 => "Network Authentication Required"
  | _ => none

def statusText (status : Nat) : String :=
  "HTTP " ++ toString status ++ " " ++ (reasonPhrase? status).getD "<unknown status code>"

/-- An address without the slashes at its end. -/
def trimAddress (address : String) : String :=
  String.ofList ((address.toList.reverse.dropWhile (· = '/')).reverse)

end Playground
